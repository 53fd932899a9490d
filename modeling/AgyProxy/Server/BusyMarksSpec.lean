import AgyProxy.Host.DispatchSpec
import AgyProxy.Server.SlotsSpec

/-!
# AgyProxy.Server.BusyMarksSpec — no busy mark and no slot is lost

* `BusyMarks.Counting`: the marks count the live calls by account; a retry moves a mark, an end takes it away.
* `EngineCalls.Inv`: the marks with the slots of the calls; `Inv.step` keeps it, one lemma for each action.
* `run_conserved`: **conservation** in every state that any interleaving reaches.
-/

namespace AgyProxy

open Js Lib

/-! ### One mark more or less -/

namespace BusyMarks

variable {m : BusyMarks} {n : AccountId → ℕ}

/-- The marks are these numbers. -/
def Counting (m : BusyMarks) (n : AccountId → ℕ) : Prop := Counts m.inFlightCount m.busyAccounts n

theorem Counting.track (h : m.Counting n) (id : Option AccountId) :
    (m.trackBusy id).Counting fun a => n a + if id = some a then 1 else 0 := by
  cases id with
  | none => exact h
  | some id =>
    simp only [Option.some.injEq]
    exact h.add id

theorem Counting.untrack (h : m.Counting n) (id : Option AccountId) :
    (m.untrackBusy id).Counting fun a => n a - if id = some a then 1 else 0 := by
  cases id with
  | none => exact h
  | some id =>
    have hsub := Counts.sub h id
    simp only [Option.some.injEq]
    unfold untrackBusy
    dsimp only
    split_ifs with hleft
    · rw [if_pos hleft, if_pos hleft] at hsub
      exact hsub
    · rw [if_neg hleft, if_neg hleft] at hsub
      exact hsub

section Calls

variable {calls : List StreamCall} {i : ℕ} {c c' : StreamCall}

/-- A mark that stays. -/
theorem Counting.keep (h : m.Counting (load StreamCall.mark calls)) (hi : calls[i]? = some c)
    (hmark : c'.mark = c.mark) : m.Counting (load StreamCall.mark (calls.set i c')) := by
  have hload : load StreamCall.mark (calls.set i c') = load StreamCall.mark calls := by
    funext a
    rw [load_set StreamCall.mark hi, hmark]
    split_ifs with ha
    · exact Nat.sub_add_cancel (load_pos StreamCall.mark (List.mem_of_getElem? hi) ha)
    · rfl
  rw [hload]
  exact h

/-- The mark of a call moves from one account to another. -/
theorem Counting.move (h : m.Counting (load StreamCall.mark calls)) (hi : calls[i]? = some c) :
    ((m.untrackBusy c.mark).trackBusy c'.mark).Counting (load StreamCall.mark (calls.set i c')) := by
  rw [funext (load_set StreamCall.mark hi c')]
  exact (h.untrack c.mark).track c'.mark

/-- The mark of a call that ends. -/
theorem Counting.leave (h : m.Counting (load StreamCall.mark calls)) (hi : calls[i]? = some c)
    (hend : c'.mark = none) : (m.untrackBusy c.mark).Counting (load StreamCall.mark (calls.set i c')) := by
  have hmove : ((m.untrackBusy c.mark).trackBusy c'.mark).Counting (load StreamCall.mark (calls.set i c')) :=
    h.move hi
  rw [hend] at hmove
  exact hmove

end Calls

end BusyMarks

/-! ### The account of an attempt -/

namespace Dispatch

variable {stack : ℕ} {d d' : Dispatch}

theorem conclude_attemptAccount (d : Dispatch) (r : AttemptResult) :
    (d.conclude r).attemptAccount = d.attemptAccount := by
  unfold conclude
  split_ifs <;> rfl

theorem abortProcess_attemptAccount (d : Dispatch) : d.abortProcess.attemptAccount = d.attemptAccount := by
  unfold abortProcess
  cases d.phase <;> rfl

theorem runTask_attemptAccount {turn : TaskTurn} (h : d.runTask turn = some d') :
    d'.attemptAccount = d.attemptAccount := by
  unfold runTask at h
  split_ifs at h with hsuperseded
  · obtain rfl := Option.some.inj h
    exact conclude_attemptAccount d _
  · cases turn with
    | spaced =>
      unfold startTask at h
      dsimp only at h
      split at h
      · obtain rfl := Option.some.inj h
        rfl
      · cases h
    | spawned =>
      obtain rfl := Option.some.inj h
      rfl
    | spawnThrew msg =>
      obtain rfl := Option.some.inj h
      exact conclude_attemptAccount d _

theorem onExit_attemptAccount (d : Dispatch) (l : LiveAttempt) (x : ProcessExit) :
    (d.onExit stack l x).attemptAccount = d.attemptAccount := by
  unfold onExit
  split
  · rfl
  · exact conclude_attemptAccount _ _

/-- The marks move with the account of the attempt. -/
theorem remark_cases {a : DispatchAction} (m : BusyMarks) (h : d.step stack a = some d') :
    d.remark m a = m ∧ d'.attemptAccount = d.attemptAccount ∨
      d.remark m a = (m.untrackBusy d.attemptAccount).trackBusy d'.attemptAccount := by
  cases step_fires h with
  | steer => exact Or.inl ⟨rfl, abortProcess_attemptAccount d⟩
  | abortSignal => exact Or.inl ⟨rfl, abortProcess_attemptAccount d⟩
  | taskTurn hp h => exact Or.inl ⟨rfl, runTask_attemptAccount h⟩
  | stdout | stderr | watchdog => exact Or.inl ⟨rfl, rfl⟩
  | @exit l x => exact Or.inl ⟨rfl, onExit_attemptAccount d l x⟩
  | @delayEnds last sel hp =>
    unfold retry remark
    split_ifs with hsuperseded
    · exact Or.inl ⟨rfl, rfl⟩
    · cases sel with
      | noAccounts => exact Or.inl ⟨rfl, rfl⟩
      | noneFound => exact Or.inr rfl
      | found id => exact Or.inr rfl

end Dispatch

/-! ### Steps -/

namespace EngineCalls

/-- What holds in every state reached. -/
structure Inv (s : EngineCalls) : Prop where
  marks : s.marks.Counting (load StreamCall.mark s.calls)
  slots : Slots s.sem s.calls
  returned : Returned s.calls s.released

/-- The latch lets `release` through once. -/
theorem leave_eq (s : EngineCalls) (i : ℕ) (c : StreamCall) (ticket : ℕ) (account : Option AccountId)
    (throws : Bool) :
    s.leave i c ticket account throws = ((s.release ticket).untrack account).setStage i c (.ended (some ticket)) := by
  cases throws <;> rfl

section Steps

variable {stack : ℕ} {s s' : EngineCalls} {i : ℕ} {c : StreamCall}

theorem mark_of_live (hlive : c.stage.isLive = true) : c.mark = c.current := if_pos hlive

/-- Outside its dispatch a call works for the account it selected first. -/
theorem current_of_not_dispatching (h : ∀ t d, c.stage ≠ .dispatching t d) : c.current = c.call.account := by
  unfold StreamCall.current
  split
  · rename_i t d hc
    exact absurd hc (h t d)
  · rfl

/-- A call gives its slot back and ends. -/
theorem Inv.giveBack (hs : s.Inv) (hi : s.calls[i]? = some c) (hlive : c.stage.isLive = true) {t : ℕ}
    (hslot : c.stage.slot = some t) {account : Option AccountId} (haccount : c.current = account) :
    (((s.release t).untrack account).setStage i c (.ended (some t))).Inv := by
  have hticket := StreamStage.ticket_of_slot hslot
  have hheld : t ∈ s.sem.held := (hs.slots.placed c (List.mem_of_getElem? hi)).of_slot hlive hslot
  constructor
  · rw [← haccount, ← mark_of_live hlive]
    exact hs.marks.leave hi rfl
  · refine hs.slots.set hi (hs.slots.bookkeeping.release hheld)
      (GatewaySemaphore.spares_release hs.slots.bookkeeping t) (fun t' => ?_)
      (fun t' ht' => Or.inl (hticket.trans ht')) trivial fun t' hengaged ht' => ?_
    · by_cases heq : t' = t
      · exact Or.inr (Or.inl (heq ▸ hticket))
      · exact Or.inl heq
    · have heq : t' = t := by
        rcases ht' with ht' | ht'
        · exact Option.some.inj (ht'.symm.trans hticket)
        · exact not_not.mp ht'
      exact absurd (heq ▸ hengaged) (GatewaySemaphore.not_engaged_release hs.slots.bookkeeping hheld)
  · exact hs.returned.giveBack hs.slots hi hlive hslot rfl

/-- A call without a slot ends. -/
theorem Inv.failCall (hs : s.Inv) (hi : s.calls[i]? = some c) (hlive : c.stage.isLive = true)
    (hticket : c.stage.ticket = none) (hcurrent : c.current = c.call.account) : (s.failCall i c).Inv := by
  constructor
  · show (s.marks.untrackBusy c.call.account).Counting _
    rw [← hcurrent, ← mark_of_live hlive]
    exact hs.marks.leave hi rfl
  · refine hs.slots.set hi hs.slots.bookkeeping (GatewaySemaphore.Spares.refl (fun _ => True) s.sem)
      (fun _ => Or.inl trivial) (fun t ht => nomatch ht) trivial fun t _ ht => ?_
    rcases ht with ht | ht
    · rw [hticket] at ht
      cases ht
    · exact absurd trivial ht
  · exact hs.returned.keep hs.slots hi hlive fun t ht => nomatch ht

/-- A call goes on where the semaphore spares it. -/
theorem Inv.advance (hs : s.Inv) (hi : s.calls[i]? = some c) (hlive : c.stage.isLive = true) {stage : StreamStage}
    {sem : GatewaySemaphore} (hinv : sem.Inv) (hspares : GatewaySemaphore.Spares (fun _ => True) s.sem sem)
    (hlive' : stage.isLive = true) (hcurrent : StreamCall.current { c with stage } = c.current)
    (hticket : ∀ t, stage.ticket = some t → c.stage.ticket = some t)
    (hkept : ∀ t, sem.Engaged t → c.stage.ticket = some t → stage.ticket = some t) (hplaced : Placed sem stage) :
    ({ s with sem }.setStage i c stage).Inv := by
  constructor
  · refine hs.marks.keep hi ?_
    rw [mark_of_live hlive, ← hcurrent]
    exact if_pos hlive'
  · refine hs.slots.set hi hinv hspares (fun _ => Or.inl trivial) (fun t ht => Or.inl (hticket t ht)) hplaced
      fun t hengaged ht => ⟨hlive', ?_⟩
    exact hkept t hengaged (ht.resolve_right fun h => h trivial)
  · exact hs.returned.keep hs.slots hi hlive fun t ht =>
      ⟨hlive', Or.inl (hticket t (StreamStage.ticket_of_slot ht))⟩

/-- Where an acquire leaves its call. -/
theorem acquire_cases (sem : GatewaySemaphore) (signal : Option ℕ) :
    (sem.refusal? signal).isSome = true ∧ sem.acquire signal = { sem with tickets := sem.tickets + 1 } ∨
      (sem.refusal? signal).isSome = false ∧ sem.mustWait = true ∧
        (sem.acquire signal).waiting = sem.waiting ++ [⟨sem.tickets, signal⟩] ∨
      (sem.refusal? signal).isSome = false ∧ sem.mustWait = false ∧
        (sem.acquire signal).held = sem.held ++ [sem.tickets] := by
  rcases sem.acquire_eq signal with ⟨-, ⟨e, he⟩, h⟩ | ⟨hwait, haborted, hfull, h⟩ | ⟨hfree, h⟩
  · exact Or.inl ⟨by rw [he]; rfl, h⟩
  · have hnone : sem.refusal? signal = none := by
      unfold GatewaySemaphore.refusal?
      rw [hwait, haborted, if_pos rfl, if_neg Bool.false_ne_true, if_neg (not_le.mpr hfull)]
    exact Or.inr (Or.inl ⟨by rw [hnone]; rfl, hwait, by rw [h]; rfl⟩)
  · have hnone : sem.refusal? signal = none := by
      unfold GatewaySemaphore.refusal?
      rw [hfree, if_neg Bool.false_ne_true]
    exact Or.inr (Or.inr ⟨by rw [hnone]; rfl, hfree, by rw [h]; rfl⟩)

theorem acquire_tickets (sem : GatewaySemaphore) (signal : Option ℕ) :
    (sem.acquire signal).tickets = sem.tickets + 1 := by
  rcases sem.acquire_eq signal with ⟨-, -, h⟩ | ⟨-, -, -, h⟩ | ⟨-, h⟩ <;> rw [h]

/-- An acquire that was refused, parked or granted, as the semaphore has it. -/
theorem Inv.acquired (hs : s.Inv) (hi : s.calls[i]? = some c) (hc : c.stage = .preparing) {stage : StreamStage}
    (hlive' : stage.isLive = true) (hcurrent : StreamCall.current { c with stage } = c.current)
    (hticket : ∀ t, stage.ticket = some t → t = s.sem.tickets) (hplaced : Placed (s.sem.acquire c.signal) stage)
    (hkept : (s.sem.acquire c.signal).Engaged s.sem.tickets → stage.ticket = some s.sem.tickets) :
    ({ s with sem := s.sem.acquire c.signal }.setStage i c stage).Inv := by
  have hlive : c.stage.isLive = true := by rw [hc]; rfl
  have hnone : ∀ t, c.stage.ticket ≠ some t := fun t ht => by
    rw [hc] at ht
    cases ht
  constructor
  · refine hs.marks.keep hi ?_
    rw [mark_of_live hlive, ← hcurrent]
    exact if_pos hlive'
  · refine hs.slots.set hi (hs.slots.bookkeeping.acquire c.signal) (s.sem.spares_acquire c.signal) (fun t => ?_)
      (fun t ht => Or.inr ⟨hticket t ht, ?_⟩) hplaced fun t hengaged ht => ⟨hlive', ?_⟩
    · by_cases heq : t = s.sem.tickets
      · exact Or.inr (Or.inr heq.ge)
      · exact Or.inl heq
    · show t < (s.sem.acquire c.signal).tickets
      rw [acquire_tickets, hticket t ht]
      exact Nat.lt_succ_self _
    · obtain rfl := not_not.mp (ht.resolve_left (hnone t))
      exact hkept hengaged
  · exact hs.returned.keep hs.slots hi hlive fun t ht =>
      ⟨hlive', Or.inr (hticket t (StreamStage.ticket_of_slot ht)).ge⟩

theorem Inv.acquire (hs : s.Inv) (hi : s.calls[i]? = some c) (hc : c.stage = .preparing) : (s.acquire i c).Inv := by
  have hcurrent : c.current = c.call.account := current_of_not_dispatching fun _ _ => by rw [hc]; nofun
  unfold EngineCalls.acquire
  dsimp only
  rcases acquire_cases s.sem c.signal with ⟨hrefused, h⟩ | ⟨hnot, hwait, h⟩ | ⟨hnot, hfree, h⟩
  · rw [if_pos hrefused]
    refine hs.acquired hi hc rfl hcurrent.symm (fun t ht => nomatch ht) trivial fun hengaged => ?_
    rw [h] at hengaged
    rcases hengaged with hheld | hwaiting
    · exact absurd (hs.slots.bookkeeping.held_lt _ hheld) (lt_irrefl _)
    · obtain ⟨w, hw, hticket⟩ := List.mem_map.mp hwaiting
      exact absurd (hs.slots.bookkeeping.waiting_lt w hw) (hticket ▸ lt_irrefl _)
  · rw [hnot, if_neg Bool.false_ne_true, hwait, if_pos rfl]
    refine hs.acquired hi hc rfl hcurrent.symm (fun t ht => (Option.some.inj ht).symm) (Or.inl (Or.inr ?_))
      fun _ => rfl
    rw [h, List.map_append]
    exact List.mem_append_right _ List.mem_cons_self
  · rw [hnot, if_neg Bool.false_ne_true, hfree, if_neg Bool.false_ne_true]
    refine hs.acquired hi hc rfl hcurrent.symm (fun t ht => (Option.some.inj ht).symm) ?_ fun _ => rfl
    show s.sem.tickets ∈ (s.sem.acquire c.signal).held
    rw [h]
    exact List.mem_append_right _ List.mem_cons_self

/-- The awaiting acquire goes on, with its slot or without. -/
theorem Inv.wake (hs : s.Inv) (hi : s.calls[i]? = some c) {t : ℕ} (hc : c.stage = .parked t) {settlement : Settlement}
    (hlookup : s.sem.settlements.lookup t = some settlement) :
    ({ s with sem := s.sem.resume t }.setStage i c
      (match settlement with
        | .granted => .admitted t
        | .aborted => .rejected)).Inv := by
  have hbook := hs.slots.bookkeeping
  have hlive : c.stage.isLive = true := by rw [hc]; rfl
  have hticket : c.stage.ticket = some t := by rw [hc]; rfl
  have hcurrent : c.current = c.call.account := current_of_not_dispatching fun _ _ => by rw [hc]; nofun
  have hmem : (t, settlement) ∈ s.sem.settlements := by
    obtain ⟨before, behind, hsplit, -⟩ := List.lookup_eq_some_iff.mp hlookup
    rw [hsplit]
    exact List.mem_append_right _ List.mem_cons_self
  have hleft : t ∉ s.sem.waiting.map Waiter.ticket := fun h => by
    obtain ⟨w, hw, rfl⟩ := List.mem_map.mp h
    exact hbook.waiting_unsettled w hw (hbook.settlements_settled _ hmem)
  have hspares : GatewaySemaphore.Spares (fun _ => True) s.sem (s.sem.resume t) :=
    { GatewaySemaphore.Spares.refl (fun _ => True) s.sem with }
  cases settlement with
  | granted =>
    have hplaced : Placed s.sem (.parked t) := hc ▸ hs.slots.placed c (List.mem_of_getElem? hi)
    have hheld : t ∈ s.sem.held := by
      rcases hplaced with hengaged | haborted
      · exact hengaged.resolve_right hleft
      · have hsame := List.inj_on_of_nodup_map hbook.settlements_nodup hmem haborted rfl
        cases hsame
    exact hs.advance hi hlive (hbook.resume t) hspares rfl hcurrent.symm (fun t' ht' => hticket.trans ht')
      (fun t' _ ht' => hticket.symm.trans ht') hheld
  | aborted =>
    refine hs.advance hi hlive (hbook.resume t) hspares rfl hcurrent.symm (fun t' ht' => nomatch ht')
      (fun t' hengaged ht' => ?_) trivial
    obtain rfl := Option.some.inj (hticket.symm.trans ht')
    rcases hengaged with hheld | hwaiting
    · exact absurd hheld (hbook.aborted_free t hmem).1
    · exact absurd hwaiting hleft

theorem Inv.proceed (hs : s.Inv) (hi : s.calls[i]? = some c) {t : ℕ} (hc : c.stage = .admitted t) (runId : RunId) :
    (s.proceed i c t runId).Inv := by
  have hlive : c.stage.isLive = true := by rw [hc]; rfl
  have hslot : c.stage.slot = some t := by rw [hc]; rfl
  have hcurrent : c.current = c.call.account := current_of_not_dispatching fun _ _ => by rw [hc]; nofun
  unfold EngineCalls.proceed
  split_ifs with haborted
  · exact hs.giveBack hi hlive hslot hcurrent
  · have hticket := StreamStage.ticket_of_slot hslot
    exact hs.advance hi hlive hs.slots.bookkeeping (GatewaySemaphore.Spares.refl _ s.sem) rfl hcurrent.symm
      (fun t' ht' => hticket.trans ht') (fun t' _ ht' => hticket.symm.trans ht')
      ((hs.slots.placed c (List.mem_of_getElem? hi)).of_slot hlive hslot)

/-- The marks after a step of the dispatch, with the call where it goes on. -/
theorem Inv.remark (hs : s.Inv) (hi : s.calls[i]? = some c) {t : ℕ} {d d' : Dispatch}
    (hc : c.stage = .dispatching t d) {a : DispatchAction} (h : d.step stack a = some d') :
    ({ s with marks := d.remark s.marks a }.setStage i c (.dispatching t d')).Inv := by
  have hlive : c.stage.isLive = true := by rw [hc]; rfl
  have hslot : c.stage.slot = some t := by rw [hc]; rfl
  have hticket := StreamStage.ticket_of_slot hslot
  have hmark : c.mark = d.attemptAccount := by
    rw [mark_of_live hlive]
    unfold StreamCall.current
    rw [hc]
  constructor
  · show (d.remark s.marks a).Counting _
    rcases d.remark_cases s.marks h with ⟨hsame, haccount⟩ | hmoved
    · rw [hsame]
      exact hs.marks.keep hi (haccount.trans hmark.symm)
    · have hmoves : ((s.marks.untrackBusy c.mark).trackBusy
          (StreamCall.mark { c with stage := .dispatching t d' })).Counting _ := hs.marks.move hi
      rw [hmoved, ← hmark]
      exact hmoves
  · exact hs.slots.set hi hs.slots.bookkeeping (GatewaySemaphore.Spares.refl (fun _ => True) s.sem)
      (fun _ => Or.inl trivial) (fun t' ht' => Or.inl (hticket.trans ht'))
      ((hs.slots.placed c (List.mem_of_getElem? hi)).of_slot hlive hslot)
      fun t' _ ht' => ⟨rfl, hticket.symm.trans (ht'.resolve_right fun h => h trivial)⟩
  · exact hs.returned.keep hs.slots hi hlive fun t' ht' => ⟨rfl, Or.inl (hticket.trans ht')⟩

theorem Inv.dispatch (hs : s.Inv) (hi : s.calls[i]? = some c) {t : ℕ} {d : Dispatch}
    (hc : c.stage = .dispatching t d) {a : DispatchAction} {throws : Bool}
    (h : s.dispatch stack i c t d a throws = some s') : s'.Inv := by
  obtain ⟨d', hd, rfl⟩ := Option.map_eq_some_iff.mp h
  have hgoes := hs.remark hi hc hd
  dsimp only
  split_ifs with hdone
  · -- the loop is over: the call leaves from where it would have gone on
    have hlt := (List.getElem?_eq_some_iff.mp hi).1
    have hleaves := hgoes.giveBack (c := { c with stage := .dispatching t d' })
      (List.getElem?_set_self hlt) rfl rfl rfl
    rw [leave_eq]
    unfold setStage at hleaves ⊢
    dsimp only [untrack, release] at hleaves ⊢
    rw [List.set_set] at hleaves
    exact hleaves
  · exact hgoes

theorem Inv.progress (hs : s.Inv) (hi : s.calls[i]? = some c) {a : CallAction}
    (h : s.progress stack i c a = some s') : s'.Inv := by
  unfold EngineCalls.progress at h
  split at h
  · rename_i hc
    obtain rfl := Option.some.inj h
    exact hs.failCall hi (by rw [hc]; rfl) (by rw [hc]; rfl) (current_of_not_dispatching fun _ _ => by rw [hc]; nofun)
  · rename_i hc
    obtain rfl := Option.some.inj h
    exact hs.acquire hi hc
  · rename_i t hc
    obtain ⟨settlement, hlookup, rfl⟩ := Option.map_eq_some_iff.mp h
    have hwoken := hs.wake hi hc hlookup
    cases settlement <;> exact hwoken
  · rename_i hc
    obtain rfl := Option.some.inj h
    exact hs.failCall hi (by rw [hc]; rfl) (by rw [hc]; rfl) (current_of_not_dispatching fun _ _ => by rw [hc]; nofun)
  · rename_i t runId hc
    obtain rfl := Option.some.inj h
    exact hs.proceed hi hc runId
  · cases h
  · rename_i hc
    exact hs.dispatch hi hc h
  · rename_i t d hc
    obtain rfl := Option.some.inj h
    rw [leave_eq]
    exact hs.giveBack hi (by rw [hc]; rfl) (by rw [hc]; rfl) (by unfold StreamCall.current; rw [hc])
  · cases h

/-- An abort changes a dispatch only, and not the account it works for. -/
theorem onAbort_cases (stack signal : ℕ) (reason : JsString) (c : StreamCall) :
    onAbort stack signal reason c = c ∨ ∃ t d d', c.stage = .dispatching t d ∧
      onAbort stack signal reason c = { c with stage := .dispatching t d' } ∧
      d'.attemptAccount = d.attemptAccount := by
  unfold onAbort
  split
  · rename_i t d hc
    split_ifs with hsignal
    · refine Or.inr ⟨t, d, _, hc, rfl, ?_⟩
      cases hstep : d.step stack (.abortSignal reason) with
      | none => rfl
      | some d' =>
        cases Dispatch.step_fires hstep with
        | abortSignal => exact d.abortProcess_attemptAccount
    · exact Or.inl rfl
  · exact Or.inl rfl

section OnAbort

variable (stack signal : ℕ) (reason : JsString) (c : StreamCall)

theorem onAbort_isLive : (onAbort stack signal reason c).stage.isLive = c.stage.isLive := by
  rcases onAbort_cases stack signal reason c with h | ⟨t, d, d', hc, h, -⟩
  · rw [h]
  · rw [h, hc]
    rfl

theorem onAbort_slot : (onAbort stack signal reason c).stage.slot = c.stage.slot := by
  rcases onAbort_cases stack signal reason c with h | ⟨t, d, d', hc, h, -⟩
  · rw [h]
  · rw [h, hc]
    rfl

theorem onAbort_ticket : (onAbort stack signal reason c).stage.ticket = c.stage.ticket := by
  rcases onAbort_cases stack signal reason c with h | ⟨t, d, d', hc, h, -⟩
  · rw [h]
  · rw [h, hc]
    rfl

theorem onAbort_mark : (onAbort stack signal reason c).mark = c.mark := by
  rcases onAbort_cases stack signal reason c with h | ⟨t, d, d', hc, h, haccount⟩
  · rw [h]
  · rw [h]
    unfold StreamCall.mark StreamCall.current
    rw [hc]
    exact haccount

theorem onAbort_placed {sem : GatewaySemaphore} (hs : Placed sem c.stage) :
    Placed sem (onAbort stack signal reason c).stage := by
  rcases onAbort_cases stack signal reason c with h | ⟨t, d, d', hc, h, -⟩
  · rw [h]
    exact hs
  · rw [hc] at hs
    rw [h]
    exact hs

theorem onAbort_of_ended (h : c.stage.isLive = false) : onAbort stack signal reason c = c := by
  rcases onAbort_cases stack signal reason c with hsame | ⟨t, d, d', hc, -, -⟩
  · exact hsame
  · rw [hc] at h
    cases h

end OnAbort

/-- **Step lemma**. -/
theorem Inv.step (hs : s.Inv) {a : StreamAction} (h : s.step stack a = some s') : s'.Inv := by
  cases a with
  | select signal call =>
    obtain rfl := Option.some.inj h
    refine ⟨?_, hs.slots.concat rfl, hs.returned.concat rfl⟩
    show (s.marks.trackBusy call.account).Counting (load StreamCall.mark (s.calls ++ [⟨call, signal, .preparing⟩]))
    rw [funext (load_concat StreamCall.mark s.calls ⟨call, signal, .preparing⟩)]
    exact hs.marks.track call.account
  | progress i a =>
    obtain ⟨c, hi, hc⟩ := Option.bind_eq_some_iff.mp h
    exact hs.progress hi hc
  | abort signal reason =>
    obtain rfl := Option.some.inj h
    have hslots := hs.slots.operate (hs.slots.bookkeeping.abort signal).1 (s.sem.spares_abort signal)
    refine ⟨?_, ?_, ?_⟩
    · show s.marks.Counting _
      rw [funext (load_map StreamCall.mark (onAbort_mark stack signal reason) s.calls)]
      exact hs.marks
    · exact hslots.map (onAbort_isLive stack signal reason) (onAbort_ticket stack signal reason)
        fun c hc => onAbort_placed stack signal reason c hc
    · exact hs.returned.map (onAbort_isLive stack signal reason) (onAbort_slot stack signal reason)
        (onAbort_of_ended stack signal reason)
  | resize max maxQueued =>
    obtain rfl := Option.some.inj h
    exact ⟨hs.marks, hs.slots.operate (hs.slots.bookkeeping.resize max maxQueued)
      { GatewaySemaphore.Spares.refl (fun _ => True) s.sem with }, hs.returned⟩

end Steps

theorem init_inv (max maxQueued : ℚ) : (init max maxQueued).Inv where
  marks := Counts.empty
  slots :=
    { bookkeeping := GatewaySemaphore.init_inv max maxQueued
      unique := fun _ _ _ _ _ hi => nomatch hi
      ticket_lt := fun _ hc => absurd hc List.not_mem_nil
      placed := fun _ hc => absurd hc List.not_mem_nil
      owned := fun _ ht => absurd ht (not_or.mpr ⟨List.not_mem_nil, List.not_mem_nil⟩) }
  returned := ⟨fun _ hc => absurd hc List.not_mem_nil, fun _ ht => absurd ht List.not_mem_nil⟩

theorem run_inv {stack : ℕ} {max maxQueued : ℚ} {as : List StreamAction} {s : EngineCalls}
    (h : exec (step stack) (init max maxQueued) as = some s) : s.Inv :=
  exec_invariant' (fun _ _ _ hs hstep => hs.step hstep) as _ _ (init_inv max maxQueued) h

theorem Inv.conserved {s : EngineCalls} (hs : s.Inv) : s.Conserved where
  counts := hs.marks.count_eq
  support a := by
    rw [hs.marks.mem_marked a, hs.marks.count_eq a]
    split_ifs with hzero
    · exact iff_of_false (not_not.mpr hzero) (not_not.mpr rfl)
    · exact iff_of_true hzero (Option.some_ne_none _)
  released_once := hs.returned.once
  idle hidle := by
    have hload : ∀ a, load StreamCall.mark s.calls a = 0 := fun a => List.countP_eq_zero.mpr fun c hc => by
      unfold StreamCall.mark
      rw [hidle c hc, if_neg Bool.false_ne_true]
      exact Bool.false_ne_true
    have hheld : s.sem.held = [] := List.eq_nil_iff_forall_not_mem.mpr fun t ht => by
      obtain ⟨c, hc, hlive, -⟩ := hs.slots.owned t (Or.inl ht)
      rw [hidle c hc] at hlive
      cases hlive
    refine ⟨fun a => ?_, ?_, hheld, ?_⟩
    · rw [hs.marks.count_eq a, if_pos (hload a)]
    · exact Finset.eq_empty_iff_forall_notMem.mpr fun a ha => (hs.marks.mem_marked a).mp ha (hload a)
    · rw [hs.slots.bookkeeping.active_eq, hheld]
      rfl

/-- **Conservation**: in every state that any interleaving reaches, the marks are those of the live calls, every
slot that a call acquired is given back once, when the call ends, and nothing is left when no call is live. -/
theorem run_conserved (stack : ℕ) (max maxQueued : ℚ) (as : List StreamAction) {s : EngineCalls}
    (h : exec (step stack) (init max maxQueued) as = some s) : s.Conserved :=
  (run_inv h).conserved

/-- One call is retried on another account while a second waits for its slot; the second is aborted once it has
the slot. -/
def switchRun : List StreamAction :=
  [.select none promptCall, .select (some 7) promptCall, .progress 0 .acquire, .progress 1 .acquire,
    .progress 0 (.proceed dispatchRunId), .progress 0 (.dispatch (.taskTurn .spawned) false),
    .progress 0 (.dispatch (.exit ⟨some 1, none, 900, none⟩) false),
    .progress 0 (.dispatch (.delayEnds (.found accountB)) false),
    .progress 0 (.dispatch (.taskTurn (.spawnThrew (js "EAGAIN"))) true), .abort 7 (js "client disconnected"),
    .progress 1 .wake, .progress 1 (.proceed dispatchRunId)]

theorem run_conserved_switch : ∃ s, exec (step 10000) (init 1 4) switchRun = some s ∧ s.released = [0, 1] ∧
    s.Conserved := by
  obtain ⟨s, hs, hreleased⟩ := Option.map_eq_some_iff.mp
    (show (exec (step 10000) (init 1 4) switchRun).map released = some [0, 1] by decide +kernel)
  exact ⟨s, hs, hreleased, run_conserved 10000 1 4 switchRun hs⟩

end EngineCalls

end AgyProxy

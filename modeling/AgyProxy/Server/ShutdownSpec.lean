import AgyProxy.Server.Shutdown
import AgyProxy.Server.UsageLedgerSpec

/-!
# AgyProxy.Server.ShutdownSpec — the order of a shutdown, and what a clean one leaves behind

* `course`: the steps of a sequence that is not forced; `step_acts`: what one action can do to it.
* `shutdown_order`: **every run follows the course**, and aborts what is in flight when the grace is over.
* `clean_exit_lands`: **a clean exit loses nothing**: rows, files and touches.
-/

namespace AgyProxy

open Js Lib

/-- Every write of the action works. -/
def ProcessAction.works : ProcessAction → Bool
  | work (.ledger a) => !a.fails
  | work (.pool c) => c.disk
  | work (.sessions c) => c.disk
  | signal _ fails => !fails
  | appClosed _ poolDisk sessionsDisk _ => poolDisk && sessionsDisk
  | cancelled _ fails => !fails
  | _ => true

namespace Gateway

variable {dateParse : JsString → Option ℤ} {startOfToday : ℕ → ℕ} {s s' : Gateway} {a : ProcessAction}

/-! ### What one action does -/

/-- The rest of the gateway, as the shutdown sees it. -/
structure SameSequence (s t : Gateway) : Prop where
  phase : t.phase = s.phase
  events : t.events = s.events
  closed : t.ledger.closed = s.ledger.closed
  graceMs : t.graceMs = s.graceMs
  clock : t.clock = s.clock
  graceTimer : t.graceTimer = s.graceTimer
  signalledAt : t.signalledAt = s.signalledAt
  inFlight : t.inFlight = s.inFlight
  aborted : t.aborted = s.aborted
  addedLate : t.addedLate = s.addedLate

/-- The outcomes of one action on a process that has not exited. -/
inductive Acts (dateParse : JsString → Option ℤ) (startOfToday : ℕ → ℕ) (s : Gateway) :
    ProcessAction → Gateway → Prop
  | tick {now : ℕ} (hle : s.clock ≤ now) : Acts dateParse startOfToday s (.tick now) { s with clock := now }
  | work {w : GatewayWork} {s' : Gateway} (h : s.work dateParse startOfToday w = some s') :
      Acts dateParse startOfToday s (.work w) s'
  | add (c : ℕ) : Acts dateParse startOfToday s (.add c) (s.add c)
  | remove (c : ℕ) : Acts dateParse startOfToday s (.remove c) { s with inFlight := s.inFlight.erase c }
  | first {now : ℕ} {fails : Bool} (hphase : s.phase = .serving) :
      Acts dateParse startOfToday s (.signal now fails)
        { s with
          ledger := s.ledger.flush now fails
          phase := .closing
          graceTimer := some (s.clock + s.graceMs)
          signalledAt := some s.clock
          events := s.events ++ [.preClose] }
  | second {now : ℕ} {fails : Bool} (hphase : s.phase ≠ .serving) :
      Acts dateParse startOfToday s (.signal now fails)
        { s with phase := .exited 1, events := s.events ++ [.exit 1] }
  | grace (hready : s.graceTimer.ready s.clock = true) : Acts dateParse startOfToday s .graceFires s.graceFires
  | appClosed {failed poolDisk sessionsDisk : Bool} {now : ℕ} (hphase : s.phase = .closing) :
      Acts dateParse startOfToday s (.appClosed failed poolDisk sessionsDisk now)
        (s.teardown failed poolDisk sessionsDisk now)
  | cancelled {failed : Bool} {now : ℕ} {fails : Bool} (hphase : s.phase = .cancelling failed) :
      Acts dateParse startOfToday s (.cancelled now fails)
        { s with
          ledger := s.ledger.close now fails
          phase := .tornDown failed
          events := s.events ++ [.ledgerClosed] }
  | finished {failed : Bool} (hphase : s.phase = .tornDown failed) :
      Acts dateParse startOfToday s .finished
        { s with
          phase := .exited (if failed then 1 else 0)
          events := s.events ++ [.exit (if failed then 1 else 0)] }

theorem step_acts (h : s.step dateParse startOfToday a = some s') :
    (∀ code, s.phase ≠ .exited code) ∧ Acts dateParse startOfToday s a s' := by
  unfold step at h
  split at h
  · cases h
  · rename_i hnot
    refine ⟨hnot, ?_⟩
    cases a with
    | tick now =>
      simp only [Option.ite_none_right_eq_some, Option.some.injEq] at h
      obtain ⟨hle, rfl⟩ := h
      exact .tick hle
    | work w => exact .work h
    | add c =>
      obtain rfl := Option.some.inj h
      exact .add c
    | remove c =>
      obtain rfl := Option.some.inj h
      exact .remove c
    | signal now fails =>
      obtain rfl := Option.some.inj h
      unfold signal
      split
      · rename_i hphase
        exact .first hphase
      · rename_i hphase
        exact .second hphase
    | graceFires =>
      simp only [Option.ite_none_right_eq_some, Option.some.injEq] at h
      obtain ⟨hready, rfl⟩ := h
      exact .grace hready
    | appClosed failed poolDisk sessionsDisk now =>
      simp only [Option.ite_none_right_eq_some, Option.some.injEq] at h
      obtain ⟨hphase, rfl⟩ := h
      exact .appClosed hphase
    | cancelled now fails =>
      dsimp only at h
      split at h
      · rename_i failed hphase
        obtain rfl := Option.some.inj h
        exact .cancelled hphase
      · cases h
    | finished =>
      dsimp only at h
      split at h
      · rename_i failed hphase
        obtain rfl := Option.some.inj h
        exact .finished hphase
      · cases h

theorem ledger_step_closed (l : UsageLedger) (action : LedgerAction) :
    (l.step startOfToday action).closed = l.closed := by
  cases action with
  | record rec uuid now fails =>
    unfold UsageLedger.step UsageLedger.record
    dsimp only
    split
    · rfl
    · split
      · exact UsageLedger.flush_closed _ now fails
      · rfl
  | flush now fails => exact UsageLedger.flush_closed l now fails

theorem work_same {w : GatewayWork} (h : s.work dateParse startOfToday w = some s') : SameSequence s s' := by
  unfold work at h
  cases w with
  | ledger action =>
    obtain rfl := Option.some.inj h
    exact ⟨rfl, rfl, ledger_step_closed s.ledger action, rfl, rfl, rfl, rfl, rfl, rfl, rfl⟩
  | pool c =>
    obtain ⟨pool, -, rfl⟩ := Option.map_eq_some_iff.mp h
    exact ⟨rfl, rfl, rfl, rfl, rfl, rfl, rfl, rfl, rfl, rfl⟩
  | sessions c =>
    obtain ⟨sessions, -, rfl⟩ := Option.map_eq_some_iff.mp h
    exact ⟨rfl, rfl, rfl, rfl, rfl, rfl, rfl, rfl, rfl, rfl⟩
  | touch id now =>
    dsimp only at h
    unfold touch at h
    split at h
    · obtain rfl := Option.some.inj h
      exact ⟨rfl, rfl, rfl, rfl, rfl, rfl, rfl, rfl, rfl, rfl⟩
    · obtain ⟨keys, -, rfl⟩ := Option.map_eq_some_iff.mp h
      exact ⟨rfl, rfl, rfl, rfl, rfl, rfl, rfl, rfl, rfl, rfl⟩

theorem close_closed (l : UsageLedger) (now : ℕ) (fails : Bool) : (l.close now fails).closed = true := by
  unfold UsageLedger.close
  split
  · assumption
  · split
    · rfl
    · rfl

/-! ### The course of a shutdown -/

/-- A sequence that no second signal cuts short; `failed` once `app.close()` rejected. -/
def course (failed : Bool) : List ShutdownEvent :=
  [.preClose, .appClosed failed, .flushed, .ledgerClosed, .exit (if failed then 1 else 0)]

/-- Where the phases stand in the course. -/
def Course (s : Gateway) : Prop :=
  match s.phase with
  | .serving => s.events = [] ∧ s.ledger.closed = false
  | .closing => s.events = (course false).take 1 ∧ s.ledger.closed = false
  | .cancelling failed => s.events = (course failed).take 3 ∧ s.ledger.closed = false
  | .tornDown failed => s.events = (course failed).take 4 ∧ s.ledger.closed = true
  | .exited code =>
    (∃ failed, code = (if failed then 1 else 0) ∧ s.events = course failed ∧ s.ledger.closed = true) ∨
      code = 1 ∧ ∃ failed k, k ∈ [1, 3, 4] ∧ s.events = (course failed).take k ++ [.exit 1] ∧
        s.ledger.closed = decide (k = 4)

theorem Course.congr (hs : s.Course) (h : SameSequence s s') : s'.Course := by
  unfold Course at hs ⊢
  rwa [h.phase, h.events, h.closed]

theorem Course.second (hs : s.Course) (hserving : s.phase ≠ .serving) (hexited : ∀ code, s.phase ≠ .exited code) :
    Course { s with phase := .exited 1, events := s.events ++ [.exit 1] } := by
  refine Or.inr ⟨rfl, ?_⟩
  unfold Course at hs
  cases hphase : s.phase with
  | serving => exact absurd hphase hserving
  | closing =>
    rw [hphase] at hs
    exact ⟨false, 1, by decide, congrArg (· ++ _) hs.1, hs.2⟩
  | cancelling failed =>
    rw [hphase] at hs
    exact ⟨failed, 3, by decide, congrArg (· ++ _) hs.1, hs.2⟩
  | tornDown failed =>
    rw [hphase] at hs
    exact ⟨failed, 4, by decide, congrArg (· ++ _) hs.1, hs.2⟩
  | exited code => exact absurd hphase (hexited code)

/-- **Every action** follows the course. -/
theorem Course.acts (hs : s.Course) (hexited : ∀ code, s.phase ≠ .exited code)
    (h : Acts dateParse startOfToday s a s') : s'.Course := by
  cases h with
  | tick | add | remove | grace => exact hs
  | work h => exact hs.congr (work_same h)
  | first hphase =>
    unfold Course at hs
    rw [hphase] at hs
    refine ⟨congrArg (· ++ _) hs.1, ?_⟩
    exact (UsageLedger.flush_closed _ _ _).trans hs.2
  | second hphase => exact hs.second hphase hexited
  | appClosed hphase =>
    unfold Course at hs
    rw [hphase] at hs
    exact ⟨congrArg (· ++ _) hs.1, hs.2⟩
  | cancelled hphase =>
    unfold Course at hs
    rw [hphase] at hs
    exact ⟨congrArg (· ++ _) hs.1, close_closed _ _ _⟩
  | @finished failed hphase =>
    unfold Course at hs
    rw [hphase] at hs
    exact Or.inl ⟨failed, rfl, congrArg (· ++ _) hs.1, hs.2⟩

theorem boot_course (graceMs now : ℕ) (table : UsageTable) (pool : AccountPoolData) (sessions : SessionStore)
    (keys : KeyTable) : (boot graceMs now table pool sessions keys).Course := ⟨rfl, rfl⟩

/-- The grace timer runs from the first signal; when it is over, whoever was in flight is aborted. -/
structure Graced (graceMs : ℕ) (s : Gateway) : Prop where
  graceMs_eq : s.graceMs = graceMs
  timer : ∀ due, s.graceTimer = some due → s.signalledAt = some (due - graceMs) ∧ graceMs ≤ due
  afterGrace : s.graceOver = true → ∀ c ∈ s.inFlight, c ∈ s.aborted ∨ c ∈ s.addedLate
  serving : s.phase = .serving → s.signalledAt = none

theorem Graced.acts {graceMs : ℕ} (hs : Graced graceMs s) (h : Acts dateParse startOfToday s a s') :
    Graced graceMs s' := by
  cases h with
  | tick => exact ⟨hs.graceMs_eq, hs.timer, hs.afterGrace, hs.serving⟩
  | work h =>
    have hsame := work_same h
    refine ⟨hsame.graceMs.trans hs.graceMs_eq, fun due hdue => ?_, fun hover => ?_, fun hphase => ?_⟩
    · rw [hsame.signalledAt]
      exact hs.timer due (hsame.graceTimer ▸ hdue)
    · rw [hsame.inFlight, hsame.aborted, hsame.addedLate]
      unfold graceOver at hover
      rw [hsame.signalledAt, hsame.graceTimer] at hover
      exact hs.afterGrace hover
    · rw [hsame.signalledAt]
      exact hs.serving (hsame.phase ▸ hphase)
  | add c =>
    refine ⟨hs.graceMs_eq, hs.timer, fun hover d hd => ?_, hs.serving⟩
    have hover' : s.graceOver = true := hover
    show d ∈ s.aborted ∨ d ∈ if s.graceOver then s.addedLate ++ [c] else s.addedLate
    rw [if_pos hover']
    rcases List.mem_append.mp hd with hd | hd
    · exact (hs.afterGrace hover' d hd).imp_right (List.mem_append_left _)
    · exact Or.inr (List.mem_append_right _ hd)
  | remove c =>
    exact ⟨hs.graceMs_eq, hs.timer, fun hover d hd => hs.afterGrace hover d (List.mem_of_mem_erase hd), hs.serving⟩
  | first hphase =>
    refine ⟨hs.graceMs_eq, fun due hdue => ?_, fun hover => absurd hover Bool.false_ne_true, nofun⟩
    obtain rfl : s.clock + s.graceMs = due := Option.some.inj hdue
    rw [hs.graceMs_eq]
    exact ⟨congrArg some (Nat.add_sub_cancel ..).symm, Nat.le_add_left ..⟩
  | second => exact ⟨hs.graceMs_eq, hs.timer, hs.afterGrace, nofun⟩
  | grace => exact ⟨hs.graceMs_eq, nofun, fun _ c hc => Or.inl (List.mem_append_right _ hc), hs.serving⟩
  | appClosed | cancelled | finished => exact ⟨hs.graceMs_eq, hs.timer, hs.afterGrace, nofun⟩

/-- How far the sequence came, cut short or not. -/
theorem Course.progress (hs : s.Course) :
    ∃ failed, s.events <+: course failed ∨ ∃ k ∈ [1, 3, 4], s.events = (course failed).take k ++ [.exit 1] := by
  unfold Course at hs
  cases hphase : s.phase with
  | serving =>
    rw [hphase] at hs
    exact ⟨false, Or.inl (hs.1 ▸ List.nil_prefix)⟩
  | closing =>
    rw [hphase] at hs
    exact ⟨false, Or.inl (hs.1 ▸ List.take_prefix 1 _)⟩
  | cancelling failed =>
    rw [hphase] at hs
    exact ⟨failed, Or.inl (hs.1 ▸ List.take_prefix 3 _)⟩
  | tornDown failed =>
    rw [hphase] at hs
    exact ⟨failed, Or.inl (hs.1 ▸ List.take_prefix 4 _)⟩
  | exited code =>
    rw [hphase] at hs
    rcases hs with ⟨failed, -, h, -⟩ | ⟨-, failed, k, hk, h, -⟩
    · exact ⟨failed, Or.inl (h ▸ List.prefix_rfl)⟩
    · exact ⟨failed, Or.inr ⟨k, hk, h⟩⟩

theorem exit_zero_of_course {failed : Bool} {k : ℕ} (hk : k ∈ [1, 3, 4]) :
    .exit 0 ∉ (course failed).take k ++ [.exit 1] := by
  revert k
  cases failed with
  | true => decide
  | false => decide

theorem ledgerClosed_of_course {failed : Bool} {k : ℕ} (hk : k ∈ [1, 3, 4]) :
    decide (k = 4) = true ↔ .ledgerClosed ∈ (course failed).take k ++ [.exit 1] := by
  revert k
  cases failed with
  | true => decide
  | false => decide

/-- What the phase says of the steps taken. -/
theorem Course.reads (hs : s.Course) : (∀ code, s.phase = .exited code → .exit code ∈ s.events) ∧
    (.exit 0 ∈ s.events → s.events = course false) ∧ (s.ledger.closed = true ↔ .ledgerClosed ∈ s.events) := by
  unfold Course at hs
  cases hphase : s.phase with
  | serving =>
    rw [hphase] at hs
    rw [hs.1, hs.2]
    exact ⟨nofun, by decide, by decide⟩
  | closing =>
    rw [hphase] at hs
    rw [hs.1, hs.2]
    exact ⟨nofun, by decide, by decide⟩
  | cancelling failed =>
    rw [hphase] at hs
    rw [hs.1, hs.2]
    revert failed
    exact fun failed _ _ => ⟨nofun, by cases failed <;> decide, by cases failed <;> decide⟩
  | tornDown failed =>
    rw [hphase] at hs
    rw [hs.1, hs.2]
    revert failed
    exact fun failed _ _ => ⟨nofun, by cases failed <;> decide, by cases failed <;> decide⟩
  | exited code =>
    rw [hphase] at hs
    rcases hs with ⟨failed, rfl, h, hclosed⟩ | ⟨rfl, failed, k, hk, h, hclosed⟩
    · rw [h, hclosed]
      refine ⟨fun code hcode => ?_, ?_, ?_⟩
      · rw [← ShutdownPhase.exited.inj hcode]
        cases failed <;> decide
      · cases failed <;> decide
      · cases failed <;> decide
    · rw [h, hclosed]
      refine ⟨fun code hcode => ?_, fun hmem => absurd hmem (exit_zero_of_course hk), ledgerClosed_of_course hk⟩
      rw [← ShutdownPhase.exited.inj hcode]
      exact List.mem_append_right _ (List.mem_singleton_self _)

/-- **The order of a shutdown.**  Whatever order work, signals, the grace timer and the awaited promises come in, the
process follows the course of a shutdown up to where it stands, or was cut short by a second signal and left with
code 1.  It leaves with code 0 only at the end of the course, behind an `app.close()` that resolved.  The ledger is
closed exactly when its step was taken.  And as long as no timer runs more than `late` behind, every call that was
in flight when the grace was over is aborted by then. -/
theorem shutdown_order (dateParse : JsString → Option ℤ) (startOfToday : ℕ → ℕ) (graceMs now late : ℕ)
    (table : UsageTable) (pool : AccountPoolData) (sessions : SessionStore) (keys : KeyTable)
    (as : List ProcessAction) (s : Gateway)
    (h : exec (step dateParse startOfToday) (boot graceMs now table pool sessions keys) as = some s) :
    (∃ failed, s.events <+: course failed ∨ ∃ k ∈ [1, 3, 4], s.events = (course failed).take k ++ [.exit 1]) ∧
      (∀ code, s.phase = .exited code → .exit code ∈ s.events) ∧
      (.exit 0 ∈ s.events → s.events = course false) ∧
      (s.ledger.closed = true ↔ .ledgerClosed ∈ s.events) ∧
      (OnTime late s.clock [s.graceTimer] → ∀ t, s.signalledAt = some t → t + graceMs + late < s.clock →
        ∀ c ∈ s.inFlight, c ∈ s.aborted ∨ c ∈ s.addedLate) := by
  have hinv : s.Course ∧ Graced graceMs s := by
    refine exec_invariant' (I := fun s => s.Course ∧ Graced graceMs s) ?_ as _ s ?_ h
    · rintro s a s' ⟨hcourse, hgraced⟩ hstep
      obtain ⟨hexited, hacts⟩ := step_acts hstep
      exact ⟨hcourse.acts hexited hacts, hgraced.acts hacts⟩
    · exact ⟨boot_course .., ⟨rfl, nofun, fun hover => absurd hover Bool.false_ne_true, fun _ => rfl⟩⟩
  obtain ⟨hcourse, hgraced⟩ := hinv
  obtain ⟨hexit, hclean, hledger⟩ := hcourse.reads
  refine ⟨hcourse.progress, hexit, hclean, hledger, fun hontime t ht hlt => hgraced.afterGrace ?_⟩
  unfold graceOver
  rw [ht, Option.isSome_some, Bool.true_and, Option.isNone_iff_eq_none]
  by_contra hsome
  obtain ⟨due, hdue⟩ := Option.ne_none_iff_exists'.mp hsome
  obtain ⟨hat, hle⟩ := hgraced.timer due hdue
  have hclock : s.clock ≤ due + late := hontime.le (hdue ▸ List.mem_cons_self)
  rw [ht] at hat
  have := Option.some.inj hat
  omega

/-- A call that is still there when the grace is over, and a second signal. -/
theorem shutdown_order_forced : ∃ s, exec (step (fun _ => none) id)
      (boot 25000 0 .empty defaultPoolData (fun _ => none) .empty)
      [.add 7, .signal 0 false, .tick 25003, .graceFires, .tick 30000, .signal 30000 false] = some s ∧
    s.events = (course false).take 1 ++ [.exit 1] ∧ (7 ∈ s.aborted ∨ 7 ∈ s.addedLate) := by
  obtain ⟨s, hs, hprops⟩ := Option.map_eq_some_iff.mp
    (show (exec (step (fun _ => none) id) (boot 25000 0 .empty defaultPoolData (fun _ => none) .empty)
      [.add 7, .signal 0 false, .tick 25003, .graceFires, .tick 30000, .signal 30000 false]).map
        (fun s => (s.events, s.graceTimer, s.clock, s.signalledAt, s.inFlight)) =
          some ([.preClose, .exit 1], none, 30000, some 0, [7]) by decide +kernel)
  simp only [Prod.mk.injEq] at hprops
  obtain ⟨hevents, htimer, hclock, hsignal, hinFlight⟩ := hprops
  obtain ⟨-, -, -, -, hgrace⟩ := shutdown_order (fun _ => none) id 25000 0 5 .empty defaultPoolData (fun _ => none)
    .empty _ s hs
  have hontime : OnTime 5 s.clock [s.graceTimer] := by
    rw [htimer, hclock]
    decide
  exact ⟨s, hs, hevents, hgrace hontime 0 hsignal (by rw [hclock]; decide) 7 (hinFlight ▸ List.mem_singleton_self 7)⟩

/-! ### What is left behind: the rows -/

section Ledger

variable {table : UsageTable}

/-- The last batch is written as by a flush, or dropped as by one without room. -/
theorem kept_close {rows : List InsertParams} {l : UsageLedger} (hopen : l.closed = false)
    (h : UsageLedger.Kept table rows l) (now : ℕ) (fails : Bool) :
    (l.close now fails).buffer = [] ∧ UsageLedger.Kept table rows (l.close now fails) := by
  unfold UsageLedger.close
  rw [if_neg (Bool.eq_false_iff.mp hopen)]
  cases fails with
  | true =>
    rw [if_pos rfl]
    refine ⟨rfl, fun hids => ?_, h.inserted, h.first⟩
    have hover := (h.accounts hids).overflow hids.nodup 0
    unfold Spool.overflow at hover
    rwa [Nat.sub_zero, List.drop_length, List.take_length] at hover
  | false =>
    rw [if_neg Bool.false_ne_true]
    have hflush := h.flush hopen now false
    rw [UsageLedger.flush_succeeds hopen] at hflush
    exact ⟨rfl, hflush.accounts, hflush.inserted, hflush.first⟩

/-- The open ledger accounts for its rows; in a closed one none waits. -/
structure Booked (table : UsageTable) (s : Gateway) : Prop where
  isOpen : s.ledger.closed = false → ∃ cap, s.ledger.Settled table cap s.recorded
  isClosed : s.ledger.closed = true → s.ledger.buffer = [] ∧ s.ledger.Kept table s.recorded

theorem Booked.congr (hs : Booked table s) (hledger : s'.ledger = s.ledger) (hrecorded : s'.recorded = s.recorded) :
    Booked table s' := by
  refine ⟨?_, ?_⟩
  · rw [hledger, hrecorded]
    exact hs.isOpen
  · rw [hledger, hrecorded]
    exact hs.isClosed

theorem ledger_step_of_closed {l : UsageLedger} (hclosed : l.closed = true) (action : LedgerAction) :
    l.step startOfToday action = l := by
  cases action with
  | record rec uuid now fails => exact if_pos hclosed
  | flush now fails => exact if_pos (by rw [hclosed, Bool.true_or])

theorem Booked.work (hs : Booked table s) {w : GatewayWork} (h : s.work dateParse startOfToday w = some s') :
    Booked table s' := by
  unfold Gateway.work at h
  cases w with
  | ledger action =>
    obtain rfl := Option.some.inj h
    cases hclosed : s.ledger.closed with
    | false =>
      obtain ⟨cap, hsettled⟩ := hs.isOpen hclosed
      have hstep := hsettled.step startOfToday action
      refine ⟨fun _ => ⟨cap, ?_⟩, fun hc => ?_⟩
      · simp only [Bool.false_eq_true, if_false]
        exact hstep
      · exact absurd (hstep.isOpen.symm.trans hc) Bool.false_ne_true
    | true =>
      have hsame : s.ledger.step startOfToday action = s.ledger := ledger_step_of_closed hclosed action
      refine hs.congr hsame ?_
      simp only [if_true]
  | pool c =>
    obtain ⟨pool, -, rfl⟩ := Option.map_eq_some_iff.mp h
    exact hs.congr rfl rfl
  | sessions c =>
    obtain ⟨sessions, -, rfl⟩ := Option.map_eq_some_iff.mp h
    exact hs.congr rfl rfl
  | touch id now =>
    dsimp only at h
    unfold touch at h
    split at h
    · obtain rfl := Option.some.inj h
      exact hs.congr rfl rfl
    · obtain ⟨keys, -, rfl⟩ := Option.map_eq_some_iff.mp h
      exact hs.congr rfl rfl

theorem Booked.acts (hs : Booked table s) (hcourse : s.Course) (h : Acts dateParse startOfToday s a s') :
    Booked table s' := by
  cases h with
  | tick | add | remove | second | grace | appClosed | finished => exact hs.congr rfl rfl
  | work h => exact hs.work h
  | @first now fails hphase =>
    unfold Course at hcourse
    rw [hphase] at hcourse
    obtain ⟨cap, hsettled⟩ := hs.isOpen hcourse.2
    have hstep := hsettled.step id (.flush now fails)
    rw [show LedgerAction.row? (.flush now fails) = none from rfl, Option.toList_none, List.append_nil] at hstep
    exact ⟨fun _ => ⟨cap, hstep⟩, fun hc => absurd (hstep.isOpen.symm.trans hc) Bool.false_ne_true⟩
  | @cancelled failed now fails hphase =>
    unfold Course at hcourse
    rw [hphase] at hcourse
    obtain ⟨cap, hsettled⟩ := hs.isOpen hcourse.2
    have hclose := kept_close hcourse.2 hsettled.kept now fails
    exact ⟨fun hc => absurd ((close_closed s.ledger now fails).symm.trans hc) nofun, fun _ => hclose⟩

end Ledger

/-! ### What is left behind: the files and the touches -/

/-- Nothing waits any more. -/
structure AllLanded (s : Gateway) : Prop where
  pool : s.pool.file = s.pool.data
  sessions : s.sessions.file = s.sessions.data
  touches : ∀ id, s.keys.store.touchPending id = none

/-- While every write works, what the files lack is marked, and the teardown leaves nothing that waits. -/
structure Lands (s : Gateway) : Prop where
  pool : s.pool.Landed
  sessions : s.sessions.Landed
  keys : s.keys.Inv
  dropped : s.ledger.dropped = []
  torn : .flushed ∈ s.events → s.workedLate = false → AllLanded s

/-- A call of a store whose write works. -/
theorem landed_call {D E : Type} {effect : D → E → Option (Mutation D)} {store store' : DebouncedStore D}
    {c : StoreCall E} (hs : store.Landed) (hdisk : c.disk = true) (h : store.call effect c = some store') :
    store'.Landed := by
  have hworks : store.WriteWorks effect c := by
    cases c with
    | mutate e disk now => exact Or.inl hdisk
    | timer disk now => exact Or.inl hdisk
    | flush disk now => exact Or.inl hdisk
  exact ((DebouncedStore.kept_iff hs h).mpr hworks).2

/-- A flush whose write works leaves the file as the data are. -/
theorem file_flush {D : Type} {store : DebouncedStore D} (hs : store.Landed) (now : ℕ) :
    (store.flush true now).file = (store.flush true now).data := by
  have hdata : (store.flush true now).data = store.data := by
    unfold DebouncedStore.flush
    split
    · exact DebouncedStore.persist_data ..
    · rfl
  rw [hdata]
  exact DebouncedStore.landed_iff_flush.mp hs now

theorem dropped_step {l : UsageLedger} (hopen : l.closed = false) {action : LedgerAction} (hok : action.fails = false) :
    (l.step startOfToday action).dropped = l.dropped := by
  rcases UsageLedger.step_dropsOldest startOfToday hopen action with h | ⟨hfails, -⟩
  · exact h
  · exact absurd (hok.symm.trans hfails) Bool.false_ne_true

/-- Behind the flushes of the teardown all work comes late. -/
theorem Course.tearing_of_flushed (hs : s.Course) (hflushed : .flushed ∈ s.events) : s.tearing = true := by
  unfold Course at hs
  unfold tearing
  cases hphase : s.phase with
  | serving =>
    rw [hphase] at hs
    rw [hs.1] at hflushed
    exact absurd hflushed List.not_mem_nil
  | closing =>
    rw [hphase] at hs
    rw [hs.1] at hflushed
    exact absurd hflushed (by decide)
  | cancelling | tornDown | exited => rfl

theorem Lands.work (hs : s.Lands) (hcourse : s.Course) {w : GatewayWork} (hworks : ProcessAction.works (.work w) = true)
    (h : s.work dateParse startOfToday w = some s') : s'.Lands := by
  have hlate : .flushed ∈ s.events → (s.workedLate || s.tearing) = true := fun hflushed => by
    rw [hcourse.tearing_of_flushed hflushed, Bool.or_true]
  unfold Gateway.work at h
  cases w with
  | ledger action =>
    obtain rfl := Option.some.inj h
    refine ⟨hs.pool, hs.sessions, hs.keys, ?_, fun hflushed hno => absurd ((hlate hflushed).symm.trans hno) nofun⟩
    have hok : action.fails = false := Bool.not_eq_true' _ ▸ hworks
    cases hclosed : s.ledger.closed with
    | false => exact (dropped_step hclosed hok).trans hs.dropped
    | true => exact (congrArg UsageLedger.dropped (ledger_step_of_closed hclosed action)).trans hs.dropped
  | pool c =>
    obtain ⟨pool, hpool, rfl⟩ := Option.map_eq_some_iff.mp h
    exact ⟨landed_call hs.pool hworks hpool, hs.sessions, hs.keys, hs.dropped,
      fun hflushed hno => absurd ((hlate hflushed).symm.trans hno) nofun⟩
  | sessions c =>
    obtain ⟨sessions, hsessions, rfl⟩ := Option.map_eq_some_iff.mp h
    exact ⟨hs.pool, landed_call hs.sessions hworks hsessions, hs.keys, hs.dropped,
      fun hflushed hno => absurd ((hlate hflushed).symm.trans hno) nofun⟩
  | touch id now =>
    dsimp only at h
    unfold touch at h
    split at h
    · obtain rfl := Option.some.inj h
      exact ⟨hs.pool, hs.sessions, hs.keys, hs.dropped,
        fun hflushed hno => absurd ((hlate hflushed).symm.trans hno) nofun⟩
    · obtain ⟨keys, hkeys, rfl⟩ := Option.map_eq_some_iff.mp h
      exact ⟨hs.pool, hs.sessions, hs.keys.step hkeys, hs.dropped,
        fun hflushed hno => absurd ((hlate hflushed).symm.trans hno) nofun⟩

/-- An action that leaves the stores alone and is not the teardown. -/
theorem Lands.later (hs : s.Lands) (hpool : s'.pool = s.pool) (hsessions : s'.sessions = s.sessions)
    (hkeys : s'.keys = s.keys) (hdropped : s'.ledger.dropped = s.ledger.dropped)
    (hlate : s'.workedLate = s.workedLate) (hevents : .flushed ∈ s'.events → .flushed ∈ s.events) : s'.Lands := by
  refine ⟨hpool ▸ hs.pool, hsessions ▸ hs.sessions, hkeys ▸ hs.keys, hdropped.trans hs.dropped,
    fun hflushed hno => ?_⟩
  have hall := hs.torn (hevents hflushed) (hlate ▸ hno)
  exact ⟨hpool ▸ hall.pool, hsessions ▸ hall.sessions, hkeys ▸ hall.touches⟩

theorem flushed_of_concat {events : List ShutdownEvent} {e : ShutdownEvent} (he : e ≠ .flushed)
    (h : .flushed ∈ events ++ [e]) : .flushed ∈ events :=
  (List.mem_append.mp h).resolve_right fun hmem => he (List.mem_singleton.mp hmem).symm

theorem dropped_close (l : UsageLedger) (now : ℕ) : (l.close now false).dropped = l.dropped := by
  unfold UsageLedger.close
  split
  · rfl
  · rfl

/-- **Every action** whose writes work. -/
theorem Lands.acts (hs : s.Lands) (hcourse : s.Course) (hworks : a.works = true)
    (h : Acts dateParse startOfToday s a s') : s'.Lands := by
  cases h with
  | tick | add | remove | grace => exact hs.later rfl rfl rfl rfl rfl id
  | work h => exact hs.work hcourse hworks h
  | @first now fails hphase =>
    unfold Course at hcourse
    rw [hphase] at hcourse
    have hok : fails = false := Bool.not_eq_true' _ ▸ hworks
    have hdropped : (s.ledger.flush now fails).dropped = s.ledger.dropped :=
      @dropped_step id s.ledger hcourse.2 (.flush now fails) hok
    exact hs.later rfl rfl rfl hdropped rfl (flushed_of_concat nofun)
  | second hphase => exact hs.later rfl rfl rfl rfl rfl (flushed_of_concat nofun)
  | @appClosed failed poolDisk sessionsDisk now hphase =>
    obtain ⟨rfl, rfl⟩ : poolDisk = true ∧ sessionsDisk = true := Bool.and_eq_true_iff.mp hworks
    have hkeys : TouchRun.step s.keys .flushTouch = some { s.keys with store := s.keys.store.flushTouch } := rfl
    refine ⟨Or.inr ?_, Or.inr ?_, hs.keys.step hkeys, hs.dropped, fun _ _ => ⟨?_, ?_, fun _ => rfl⟩⟩
    · exact file_flush hs.pool now
    · exact file_flush hs.sessions now
    · exact file_flush hs.pool now
    · exact file_flush hs.sessions now
  | @cancelled failed now fails hphase =>
    have hok : fails = false := Bool.not_eq_true' _ ▸ hworks
    rw [hok]
    exact hs.later rfl rfl rfl (dropped_close s.ledger now) rfl (flushed_of_concat nofun)
  | finished hphase => exact hs.later rfl rfl rfl rfl rfl (flushed_of_concat nofun)

/-- Without a touch that waits the row of a key shows its last one. -/
theorem lastUsed_of_landed (hkeys : s.keys.Inv) (hnone : ∀ id, s.keys.store.touchPending id = none) :
    ∀ r ∈ s.keys.store.table.rows, ∀ t, s.keys.touched r.id = some t → r.lastUsedAt = some t := by
  intro r hr t ht
  have hcell : s.keys.store.cell? r.id = some ⟨r.lastUsedAt, s.keys.store.lastWritten r.id, none⟩ := by
    unfold KeyStore.cell?
    rw [KeyTable.get_eq_some_iff.mpr ⟨hr, rfl⟩, hnone]
    rfl
  exact (hkeys.cell r.id _ hcell).landed rfl t ht

/-- **A clean exit loses nothing.**  When the process leaves with code 0, every row that was handed to the ledger
before it closed is in the table, once and in order, but for those that failed transactions dropped; and where every
write worked, no row was dropped, and unless there was work behind the flushes of the teardown the files of the pool
and of the sessions hold what the process held, and the row of every key that was used shows its last use. -/
theorem clean_exit_lands (dateParse : JsString → Option ℤ) (startOfToday : ℕ → ℕ) (graceMs now : ℕ)
    (table : UsageTable) (pool : AccountPoolData) (sessions : SessionStore) (keys : KeyTable)
    (hkeys : ∀ r ∈ keys.rows, ∀ t ∈ r.lastUsedAt, t ≤ now) (as : List ProcessAction) (s : Gateway)
    (h : exec (step dateParse startOfToday) (boot graceMs now table pool sessions keys) as = some s)
    (hexit : s.phase = .exited 0) :
    (UsageLedger.DistinctIds table s.recorded → ∃ inserted, s.ledger.table.rows = table.rows ++ inserted ∧
      inserted.map UsageRow.params = s.recorded.filter fun r => decide (r ∉ s.ledger.dropped)) ∧
    ((∀ a ∈ as, a.works = true) → s.ledger.dropped = [] ∧ (s.workedLate = false →
      s.pool.file = s.pool.data ∧ s.sessions.file = s.sessions.data ∧
        ∀ r ∈ s.keys.store.table.rows, ∀ t, s.keys.touched r.id = some t → r.lastUsedAt = some t)) := by
  have hbooked : s.Course ∧ Booked table s := by
    refine exec_invariant' (I := fun s => s.Course ∧ Booked table s) ?_ as _ s ?_ h
    · rintro s a s' ⟨hcourse, hbooked⟩ hstep
      obtain ⟨hexited, hacts⟩ := step_acts hstep
      exact ⟨hcourse.acts hexited hacts, hbooked.acts hcourse hacts⟩
    · exact ⟨boot_course .., fun _ => ⟨_, UsageLedger.init_settled none table⟩, nofun⟩
  obtain ⟨hcourse, hbooked⟩ := hbooked
  obtain ⟨hclosed, hevents⟩ : s.ledger.closed = true ∧ s.events = course false := by
    obtain ⟨hexit', hclean, hledger⟩ := hcourse.reads
    have hevents := hclean (hexit' 0 hexit)
    exact ⟨hledger.mpr (hevents ▸ by decide), hevents⟩
  obtain ⟨hbuffer, hkept⟩ := hbooked.isClosed hclosed
  refine ⟨fun hids => ?_, fun hworks => ?_⟩
  · have hacc := (hkept.accounts hids).kept
    unfold UsageLedger.spool at hacc
    rw [hbuffer, List.append_nil] at hacc
    exact ⟨_, hkept.inserted hids, hacc⟩
  · have hlands : s.Course ∧ s.Lands := by
      have hstep : ∀ s a s', s.Course ∧ s.Lands → a.works = true → step dateParse startOfToday s a = some s' →
          s'.Course ∧ s'.Lands := by
        rintro s a s' ⟨hcourse, hlands⟩ hok hstep
        obtain ⟨hexited, hacts⟩ := step_acts hstep
        exact ⟨hcourse.acts hexited hacts, hlands.acts hcourse hok hacts⟩
      refine exec_invariant hstep as _ s ?_ (Every.of_forall hworks) h
      · refine ⟨boot_course .., Or.inr rfl, Or.inr rfl, TouchRun.start_inv none hkeys, rfl, fun hflushed => ?_⟩
        exact absurd hflushed List.not_mem_nil
    refine ⟨hlands.2.dropped, fun hno => ?_⟩
    have hall := hlands.2.torn (hevents ▸ by decide) hno
    exact ⟨hall.pool, hall.sessions, lastUsed_of_landed hlands.2.keys hall.touches⟩

/-- A record, a touch and a session while it serves, a call that outlives the grace, and a clean exit. -/
def cleanRun : List ProcessAction :=
  [.work (.ledger (.record (UsageLedger.plainRecord (js "r1")) [] 60001 false)), .work (.touch (js "key_1") 60002),
    .work (.sessions (.mutate .clear true 60002)), .add 7, .signal 60003 false, .tick 85004, .graceFires,
    .appClosed false true true 85005, .cancelled 85006 false, .finished]

theorem clean_exit_lands_run : ∃ s, exec (step (fun _ => none) id)
      (boot 25000 60000 .empty defaultPoolData (fun _ => none) TouchRun.oneKey) cleanRun = some s ∧
    s.phase = .exited 0 ∧ s.ledger.dropped = [] ∧
      ∀ r ∈ s.keys.store.table.rows, ∀ t, s.keys.touched r.id = some t → r.lastUsedAt = some t := by
  obtain ⟨s, hs, hprops⟩ := Option.map_eq_some_iff.mp
    (show (exec (step (fun _ => none) id)
      (boot 25000 60000 .empty defaultPoolData (fun _ => none) TouchRun.oneKey) cleanRun).map
        (fun s => (s.phase, s.workedLate)) = some (.exited 0, false) by decide +kernel)
  obtain ⟨hexit, hlate⟩ := Prod.mk.inj hprops
  have hkeys : ∀ r ∈ TouchRun.oneKey.rows, ∀ t ∈ r.lastUsedAt, t ≤ 60000 := by
    intro r hr t ht
    obtain rfl := List.mem_singleton.mp hr
    obtain rfl : 50000 = t := Option.some.inj ht
    decide
  obtain ⟨-, hworks⟩ := clean_exit_lands (fun _ => none) id 25000 60000 .empty defaultPoolData (fun _ => none)
    TouchRun.oneKey hkeys cleanRun s hs hexit
  obtain ⟨hdropped, hfiles⟩ := hworks (by decide)
  exact ⟨s, hs, hexit, hdropped, (hfiles hlate).2.2⟩

end Gateway

end AgyProxy

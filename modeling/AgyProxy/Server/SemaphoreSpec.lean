import AgyProxy.Server.Semaphore
import Mathlib.Algebra.Order.Floor.Ring
import Mathlib.Data.List.Nodup
import Mathlib.Data.Rat.Floor

/-!
# AgyProxy.Server.SemaphoreSpec — conservation of slots, and what a change of the limits breaks

* `Inv`: the bookkeeping that holds whatever the limits are; `step_inv` keeps it.
* `Conserves`: slots are counted, bounded, handed on in order, and waited for only when all are taken.
* `conserves_iff`: with constant limits every run conserves exactly when both limits are whole numbers.
* `Sound`, `InBalance`: under changing limits, which operations keep to the current ones
  (`sound_iff_inBalance`).
-/

namespace AgyProxy

open Lib

/-- A settings write. -/
def SemaphoreAction.isResize : SemaphoreAction → Bool
  | resize _ _ => true
  | _ => false

namespace GatewaySemaphore

/-! ### The bookkeeping -/

/-- What holds of the queue, the latches and the slots in every state reached. -/
structure Inv (s : GatewaySemaphore) : Prop where
  active_eq : s.active = s.held.length
  held_nodup : s.held.Nodup
  held_lt : ∀ t ∈ s.held, t < s.tickets
  waiting_lt : ∀ w ∈ s.waiting, w.ticket < s.tickets
  settled_lt : ∀ t ∈ s.settled, t < s.tickets
  waiting_sorted : s.waiting.Pairwise fun v w => v.ticket < w.ticket
  waiting_unsettled : ∀ w ∈ s.waiting, w.ticket ∉ s.settled
  waiting_not_held : ∀ w ∈ s.waiting, w.ticket ∉ s.held
  listening : ∀ w ∈ s.listeners, w ∈ s.waiting ∨ w.ticket ∈ s.settled
  settlements_settled : ∀ p ∈ s.settlements, p.1 ∈ s.settled
  settlements_nodup : (s.settlements.map Prod.fst).Nodup
  handedOff_settled : ∀ t ∈ s.handedOff, t ∈ s.settled
  handedOff_sorted : s.handedOff.Pairwise (· < ·)
  handedOff_first : ∀ t ∈ s.handedOff, ∀ w ∈ s.waiting, t < w.ticket
  aborted_free : ∀ t, (t, Settlement.aborted) ∈ s.settlements → t ∉ s.held ∧ t ∉ s.handedOff

theorem init_inv (max maxQueued : ℚ) : (init max maxQueued).Inv := by
  constructor <;> simp [init]

/-- A queue without settled waiters hands on its first. -/
theorem nextWaiter_of_unsettled {settled : List ℕ} :
    ∀ {ws : List Waiter}, (∀ w ∈ ws, w.ticket ∉ settled) → nextWaiter settled ws = (ws.head?, ws.tail)
  | [], _ => rfl
  | w :: _, h => if_neg (h w List.mem_cons_self)

theorem acquire_eq (s : GatewaySemaphore) (signal : Option ℕ) :
    s.mustWait = true ∧ (∃ e, s.refusal? signal = some e) ∧
        s.acquire signal = { s with tickets := s.tickets + 1 } ∨
      s.mustWait = true ∧ s.isAborted signal = false ∧ (s.waiting.length : ℚ) < s.maxQueued ∧
        s.acquire signal = { s.park signal with tickets := s.tickets + 1 } ∨
      s.mustWait = false ∧ s.acquire signal = { s.grant with tickets := s.tickets + 1 } := by
  unfold acquire refusal?
  by_cases hwait : s.mustWait = true
  · by_cases hab : s.isAborted signal = true
    · exact Or.inl ⟨hwait, ⟨abortedFailure, by simp [hwait, hab]⟩, by simp [hwait, hab]⟩
    · have hab' : s.isAborted signal = false := by simpa using hab
      by_cases hfull : s.maxQueued ≤ s.waiting.length
      · exact Or.inl ⟨hwait, ⟨s.queueFullFailure, by simp [hwait, hab', hfull]⟩, by simp [hwait, hab', hfull]⟩
      · exact Or.inr (Or.inl ⟨hwait, hab', not_le.mp hfull, by simp [hwait, hab', hfull]⟩)
  · have hwait' : s.mustWait = false := by simpa using hwait
    exact Or.inr (Or.inr ⟨hwait', by simp [hwait']⟩)

theorem mustWait_eq_false {s : GatewaySemaphore} :
    s.mustWait = false ↔ (s.active : ℚ) < s.max ∧ s.waiting = [] := by
  simp [mustWait]

theorem mustWait_eq_true {s : GatewaySemaphore} :
    s.mustWait = true ↔ s.max ≤ (s.active : ℚ) ∨ s.waiting ≠ [] := by
  simp [mustWait]

section Steps

variable {s : GatewaySemaphore}

theorem Inv.refuse (hs : s.Inv) : Inv { s with tickets := s.tickets + 1 } :=
  { hs with
    held_lt := fun t ht => Nat.lt_succ_of_lt (hs.held_lt t ht)
    waiting_lt := fun w hw => Nat.lt_succ_of_lt (hs.waiting_lt w hw)
    settled_lt := fun t ht => Nat.lt_succ_of_lt (hs.settled_lt t ht) }

theorem Inv.park (hs : s.Inv) (signal : Option ℕ) :
    Inv { s.park signal with tickets := s.tickets + 1 } := by
  have hmem : ∀ w ∈ s.waiting ++ [⟨s.tickets, signal⟩], w ∈ s.waiting ∨ w.ticket = s.tickets := by
    intro w hw
    rcases List.mem_append.mp hw with hw | hw
    · exact Or.inl hw
    · rw [List.mem_singleton.mp hw]
      exact Or.inr rfl
  refine
    { hs.refuse with
      waiting_lt := ?_
      waiting_sorted := ?_
      waiting_unsettled := ?_
      waiting_not_held := ?_
      listening := ?_
      handedOff_first := ?_ }
  · intro w hw
    rcases hmem w hw with hw | hw
    · exact Nat.lt_succ_of_lt (hs.waiting_lt w hw)
    · exact hw ▸ Nat.lt_succ_self _
  · refine List.pairwise_append.mpr ⟨hs.waiting_sorted, List.pairwise_singleton _ _, ?_⟩
    intro v hv w hw
    rw [List.mem_singleton.mp hw]
    exact hs.waiting_lt v hv
  · intro w hw hset
    rcases hmem w hw with hw | hw
    · exact hs.waiting_unsettled w hw hset
    · exact absurd (hs.settled_lt _ hset) (by omega)
  · intro w hw hheld
    rcases hmem w hw with hw | hw
    · exact hs.waiting_not_held w hw hheld
    · exact absurd (hs.held_lt _ hheld) (by omega)
  · intro w hw
    rcases List.mem_append.mp hw with hw | hw
    · exact (hs.listening w hw).imp_left (List.mem_append_left _)
    · refine Or.inl (List.mem_append_right _ ?_)
      split at hw
      · exact hw
      · exact absurd hw List.not_mem_nil
  · intro t ht w hw
    rcases hmem w hw with hw | hw
    · exact hs.handedOff_first t ht w hw
    · have := hs.settled_lt t (hs.handedOff_settled t ht)
      omega

theorem Inv.grant (hs : s.Inv) (hw : s.waiting = []) :
    Inv { s.grant with tickets := s.tickets + 1 } := by
  have hnew : s.tickets ∉ s.held := fun h => Nat.lt_irrefl _ (hs.held_lt _ h)
  have hmem : ∀ t ∈ s.held ++ [s.tickets], t ∈ s.held ∨ t = s.tickets := by
    intro t ht
    simpa using ht
  refine
    { hs.refuse with
      active_eq := ?_
      held_nodup := ?_
      held_lt := ?_
      waiting_not_held := ?_
      aborted_free := ?_ }
  · show s.active + 1 = ((s.held ++ [s.tickets]).length : ℤ)
    rw [hs.active_eq, List.length_append, List.length_singleton]
    push_cast
    rfl
  · exact List.Nodup.append hs.held_nodup (List.nodup_singleton _) (by simpa using hnew)
  · intro t ht
    rcases hmem t ht with ht | rfl
    · exact Nat.lt_succ_of_lt (hs.held_lt t ht)
    · exact Nat.lt_succ_self _
  · intro w hmem'
    exact absurd (hw ▸ hmem' : w ∈ []) List.not_mem_nil
  · intro t ht
    refine ⟨fun hheld => ?_, (hs.aborted_free t ht).2⟩
    rcases hmem t hheld with hheld | rfl
    · exact (hs.aborted_free t ht).1 hheld
    · exact Nat.lt_irrefl _ (hs.settled_lt _ (hs.settlements_settled _ ht))

theorem Inv.acquire (hs : s.Inv) (signal : Option ℕ) : (s.acquire signal).Inv := by
  rcases s.acquire_eq signal with ⟨-, -, h⟩ | ⟨-, -, -, h⟩ | ⟨hwait, h⟩
  · exact h ▸ hs.refuse
  · exact h ▸ hs.park signal
  · exact h ▸ hs.grant (mustWait_eq_false.mp hwait).2

/-- The slot of a released ticket goes to the first waiter, or comes free. -/
theorem release_eq (hs : s.Inv) (ticket : ℕ) :
    (∃ w rest, s.waiting = w :: rest ∧
        s.release ticket =
          { s with
            waiting := rest
            settled := w.ticket :: s.settled
            held := s.held.erase ticket ++ [w.ticket]
            handedOff := s.handedOff ++ [w.ticket]
            settlements := s.settlements ++ [(w.ticket, .granted)] }) ∨
      s.waiting = [] ∧
        s.release ticket = { s with waiting := [], active := s.active - 1, held := s.held.erase ticket } := by
  unfold release
  rw [nextWaiter_of_unsettled hs.waiting_unsettled]
  cases hw : s.waiting with
  | nil => exact Or.inr ⟨rfl, rfl⟩
  | cons w rest => exact Or.inl ⟨w, rest, rfl, rfl⟩

/-- A waiter whose latch is not set has no settlement yet. -/
theorem Inv.settlements_concat (hs : s.Inv) {t : ℕ} (ht : t ∉ s.settled) (o : Settlement) :
    ((s.settlements ++ [(t, o)]).map Prod.fst).Nodup := by
  rw [List.map_append]
  refine List.Nodup.append hs.settlements_nodup (List.nodup_singleton _) ?_
  rintro u hu hu'
  obtain ⟨p, hp, rfl⟩ := List.mem_map.mp hu
  have hpt : p.1 = t := by simpa using hu'
  exact ht (hpt ▸ hs.settlements_settled p hp)

theorem Inv.free (hs : s.Inv) (hw : s.waiting = []) {ticket : ℕ} (hheld : ticket ∈ s.held) :
    Inv { s with waiting := [], active := s.active - 1, held := s.held.erase ticket } := by
  have hpos : 0 < s.held.length := List.length_pos_of_mem hheld
  refine
    { hs with
      active_eq := ?_
      held_nodup := hs.held_nodup.erase _
      held_lt := fun t ht => hs.held_lt t (List.mem_of_mem_erase ht)
      waiting_lt := by simp
      waiting_sorted := List.Pairwise.nil
      waiting_unsettled := by simp
      waiting_not_held := by simp
      listening := ?_
      handedOff_first := by simp
      aborted_free := ?_ }
  · show s.active - 1 = ((s.held.erase ticket).length : ℤ)
    rw [hs.active_eq, List.length_erase_of_mem hheld]
    omega
  · intro w hmem
    refine (hs.listening w hmem).imp_left fun h => ?_
    exact hw ▸ h
  · intro t ht
    exact ⟨fun h => (hs.aborted_free t ht).1 (List.mem_of_mem_erase h), (hs.aborted_free t ht).2⟩

/-- A settled waiter is told by its latch from those still in the queue. -/
theorem Inv.handOff (hs : s.Inv) {ticket : ℕ} (hheld : ticket ∈ s.held) {w : Waiter} {rest : List Waiter}
    (hw : s.waiting = w :: rest) :
    Inv
      { s with
        waiting := rest
        settled := w.ticket :: s.settled
        held := s.held.erase ticket ++ [w.ticket]
        handedOff := s.handedOff ++ [w.ticket]
        settlements := s.settlements ++ [(w.ticket, .granted)] } := by
  have hwmem : w ∈ s.waiting := hw ▸ List.mem_cons_self
  have hrest : ∀ v ∈ rest, v ∈ s.waiting := fun v hv => hw ▸ List.mem_cons_of_mem w hv
  have hlt : ∀ v ∈ rest, w.ticket < v.ticket := (List.pairwise_cons.mp (hw ▸ hs.waiting_sorted)).1
  have hnew : w.ticket ∉ s.held := hs.waiting_not_held w hwmem
  have hunset : w.ticket ∉ s.settled := hs.waiting_unsettled w hwmem
  have hheld' : ∀ t ∈ s.held.erase ticket ++ [w.ticket], t ∈ s.held ∨ t = w.ticket := by
    intro t ht
    rcases List.mem_append.mp ht with ht | ht
    · exact Or.inl (List.mem_of_mem_erase ht)
    · exact Or.inr (List.mem_singleton.mp ht)
  have hpos : 0 < s.held.length := List.length_pos_of_mem hheld
  constructor
  · show s.active = ((s.held.erase ticket ++ [w.ticket]).length : ℤ)
    rw [hs.active_eq, List.length_append, List.length_erase_of_mem hheld, List.length_singleton]
    omega
  · refine List.Nodup.append (hs.held_nodup.erase _) (List.nodup_singleton _) ?_
    simpa using fun h => hnew (List.mem_of_mem_erase h)
  · intro t ht
    rcases hheld' t ht with ht | rfl
    · exact hs.held_lt t ht
    · exact hs.waiting_lt w hwmem
  · exact fun v hv => hs.waiting_lt v (hrest v hv)
  · intro t ht
    rcases List.mem_cons.mp ht with rfl | ht
    · exact hs.waiting_lt w hwmem
    · exact hs.settled_lt t ht
  · exact (List.pairwise_cons.mp (hw ▸ hs.waiting_sorted)).2
  · intro v hv hset
    rcases List.mem_cons.mp hset with heq | hset
    · have := hlt v hv
      omega
    · exact hs.waiting_unsettled v (hrest v hv) hset
  · intro v hv h
    rcases hheld' _ h with h | heq
    · exact hs.waiting_not_held v (hrest v hv) h
    · have := hlt v hv
      omega
  · intro v hv
    rcases hs.listening v hv with hv | hv
    · rcases List.mem_cons.mp (hw ▸ hv : v ∈ w :: rest) with rfl | hv
      · exact Or.inr List.mem_cons_self
      · exact Or.inl hv
    · exact Or.inr (List.mem_cons_of_mem _ hv)
  · intro p hp
    rcases List.mem_append.mp hp with hp | hp
    · exact List.mem_cons_of_mem _ (hs.settlements_settled p hp)
    · rw [List.mem_singleton.mp hp]
      exact List.mem_cons_self
  · exact hs.settlements_concat hunset _
  · intro t ht
    rcases List.mem_append.mp ht with ht | ht
    · exact List.mem_cons_of_mem _ (hs.handedOff_settled t ht)
    · rw [List.mem_singleton.mp ht]
      exact List.mem_cons_self
  · refine List.pairwise_append.mpr ⟨hs.handedOff_sorted, List.pairwise_singleton _ _, ?_⟩
    intro t ht u hu
    rw [List.mem_singleton.mp hu]
    exact hs.handedOff_first t ht w hwmem
  · intro t ht v hv
    rcases List.mem_append.mp ht with ht | ht
    · exact hs.handedOff_first t ht v (hrest v hv)
    · rw [List.mem_singleton.mp ht]
      exact hlt v hv
  · intro t ht
    have hold : (t, Settlement.aborted) ∈ s.settlements := by simpa using ht
    have hne : t ≠ w.ticket := fun h => hunset (h ▸ hs.settlements_settled _ hold)
    refine ⟨fun h => ?_, fun h => ?_⟩
    · rcases hheld' t h with h | h
      · exact (hs.aborted_free t hold).1 h
      · exact hne h
    · rcases List.mem_append.mp h with h | h
      · exact (hs.aborted_free t hold).2 h
      · exact hne (List.mem_singleton.mp h)

theorem Inv.release (hs : s.Inv) {ticket : ℕ} (hheld : ticket ∈ s.held) : (s.release ticket).Inv := by
  rcases release_eq hs ticket with ⟨w, rest, hw, h⟩ | ⟨hw, h⟩
  · exact h ▸ hs.handOff hheld hw
  · exact h ▸ hs.free hw hheld

/-! An abort touches the queue, the latches and the settlements only. -/

@[simp] theorem onAbort_active (w : Waiter) : (s.onAbort w).active = s.active := by
  unfold onAbort; split <;> rfl

@[simp] theorem onAbort_max (w : Waiter) : (s.onAbort w).max = s.max := by
  unfold onAbort; split <;> rfl

@[simp] theorem onAbort_maxQueued (w : Waiter) : (s.onAbort w).maxQueued = s.maxQueued := by
  unfold onAbort; split <;> rfl

@[simp] theorem onAbort_held (w : Waiter) : (s.onAbort w).held = s.held := by
  unfold onAbort; split <;> rfl

@[simp] theorem onAbort_listeners (w : Waiter) : (s.onAbort w).listeners = s.listeners := by
  unfold onAbort; split <;> rfl

theorem onAbort_waiting (w : Waiter) : List.Sublist (s.onAbort w).waiting s.waiting := by
  unfold onAbort
  split
  · exact List.Sublist.refl _
  · exact List.erase_sublist

theorem Inv.tickets_nodup (hs : s.Inv) : (s.waiting.map Waiter.ticket).Nodup :=
  List.pairwise_map.mpr (hs.waiting_sorted.imp Nat.ne_of_lt)

/-- Tickets tell the waiters apart. -/
theorem Inv.ticket_inj (hs : s.Inv) {v w : Waiter} (hv : v ∈ s.waiting) (hw : w ∈ s.waiting)
    (h : v.ticket = w.ticket) : v = w :=
  List.inj_on_of_nodup_map hs.tickets_nodup hv hw h

theorem Inv.onAbort (hs : s.Inv) {w : Waiter} (hw : w ∈ s.listeners) : (s.onAbort w).Inv := by
  unfold GatewaySemaphore.onAbort
  split
  · exact hs
  · rename_i hunset
    have hwmem : w ∈ s.waiting := (hs.listening w hw).resolve_right hunset
    have hsub : List.Sublist (s.waiting.erase w) s.waiting := List.erase_sublist
    have hother : ∀ v ∈ s.waiting.erase w, v.ticket ≠ w.ticket := by
      intro v hv heq
      obtain rfl : v = w := hs.ticket_inj (hsub.subset hv) hwmem heq
      have hnodup : s.waiting.Nodup := hs.tickets_nodup.of_map _
      exact hnodup.not_mem_erase hv
    refine
      { hs with
        waiting_lt := fun v hv => hs.waiting_lt v (hsub.subset hv)
        settled_lt := ?_
        waiting_sorted := hs.waiting_sorted.sublist hsub
        waiting_unsettled := ?_
        waiting_not_held := fun v hv => hs.waiting_not_held v (hsub.subset hv)
        listening := ?_
        settlements_settled := ?_
        settlements_nodup := hs.settlements_concat hunset _
        handedOff_settled := fun t ht => List.mem_cons_of_mem _ (hs.handedOff_settled t ht)
        handedOff_first := fun t ht v hv => hs.handedOff_first t ht v (hsub.subset hv)
        aborted_free := ?_ }
    · intro t ht
      rcases List.mem_cons.mp ht with rfl | ht
      · exact hs.waiting_lt w hwmem
      · exact hs.settled_lt t ht
    · intro v hv hset
      rcases List.mem_cons.mp hset with heq | hset
      · exact hother v hv heq
      · exact hs.waiting_unsettled v (hsub.subset hv) hset
    · intro v hv
      rcases hs.listening v hv with hmem | hset
      · by_cases hvw : v = w
        · exact Or.inr (hvw ▸ List.mem_cons_self)
        · exact Or.inl ((List.mem_erase_of_ne hvw).mpr hmem)
      · exact Or.inr (List.mem_cons_of_mem _ hset)
    · intro p hp
      rcases List.mem_append.mp hp with hp | hp
      · exact List.mem_cons_of_mem _ (hs.settlements_settled p hp)
      · rw [List.mem_singleton.mp hp]
        exact List.mem_cons_self
    · intro t ht
      rcases List.mem_append.mp ht with ht | ht
      · exact hs.aborted_free t ht
      · obtain rfl : t = w.ticket := (Prod.mk.inj (List.mem_singleton.mp ht)).1
        exact ⟨hs.waiting_not_held w hwmem, fun h => hunset (hs.handedOff_settled _ h)⟩

/-- What running listeners of a fired signal keeps. -/
theorem foldl_onAbort :
    ∀ (ws : List Waiter) {s : GatewaySemaphore}, s.Inv → (∀ w ∈ ws, w ∈ s.listeners) →
      (ws.foldl GatewaySemaphore.onAbort s).Inv ∧
        (ws.foldl GatewaySemaphore.onAbort s).active = s.active ∧
        (ws.foldl GatewaySemaphore.onAbort s).held = s.held ∧
        (ws.foldl GatewaySemaphore.onAbort s).max = s.max ∧
        (ws.foldl GatewaySemaphore.onAbort s).maxQueued = s.maxQueued ∧
        List.Sublist (ws.foldl GatewaySemaphore.onAbort s).waiting s.waiting
  | [], _, hs, _ => ⟨hs, rfl, rfl, rfl, rfl, List.Sublist.refl _⟩
  | w :: ws, s, hs, hmem => by
    have hs' : (s.onAbort w).Inv := hs.onAbort (hmem w List.mem_cons_self)
    have hmem' : ∀ v ∈ ws, v ∈ (s.onAbort w).listeners := fun v hv => by
      rw [onAbort_listeners]
      exact hmem v (List.mem_cons_of_mem w hv)
    obtain ⟨hinv, hactive, hheld, hmax, hmaxQueued, hwaiting⟩ := foldl_onAbort ws hs' hmem'
    refine ⟨hinv, ?_, ?_, ?_, ?_, hwaiting.trans (onAbort_waiting w)⟩
    · exact hactive.trans (onAbort_active w)
    · exact hheld.trans (onAbort_held w)
    · exact hmax.trans (onAbort_max w)
    · exact hmaxQueued.trans (onAbort_maxQueued w)

/-- An abort frees no slot and grants none: it can only shorten the queue. -/
theorem Inv.abort (hs : s.Inv) (signal : ℕ) :
    (s.abort signal).Inv ∧ (s.abort signal).active = s.active ∧ (s.abort signal).held = s.held ∧
      (s.abort signal).max = s.max ∧ (s.abort signal).maxQueued = s.maxQueued ∧
      List.Sublist (s.abort signal).waiting s.waiting := by
  unfold GatewaySemaphore.abort
  split
  · exact ⟨hs, rfl, rfl, rfl, rfl, List.Sublist.refl _⟩
  · obtain ⟨hinv, hrest⟩ := foldl_onAbort (s.listeners.filter fun w => w.signal = some signal) hs
      fun w hw => List.mem_of_mem_filter hw
    exact ⟨{ hinv with listening := fun w hw => hinv.listening w (List.mem_of_mem_filter hw) }, hrest⟩

theorem Inv.resume (hs : s.Inv) (ticket : ℕ) : (s.resume ticket).Inv :=
  { hs with listening := fun w hw => hs.listening w (List.mem_of_mem_filter hw) }

theorem Inv.resize (hs : s.Inv) (max maxQueued : ℚ) : Inv { s with max, maxQueued } := { hs with }

end Steps

/-- The actions that are enabled, one by one. -/
theorem step_cases {s s' : GatewaySemaphore} {a : SemaphoreAction} (h : s.step a = some s') :
    (∃ signal, a = .acquire signal ∧ s' = s.acquire signal) ∨
      (∃ ticket, a = .release ticket ∧ ticket ∈ s.held ∧ s' = s.release ticket) ∨
      (∃ signal, a = .abort signal ∧ s' = s.abort signal) ∨
      (∃ ticket, a = .resume ticket ∧ s' = s.resume ticket) ∨
      ∃ max maxQueued, a = .resize max maxQueued ∧ s' = { s with max, maxQueued } := by
  cases a with
  | acquire signal => exact Or.inl ⟨signal, rfl, (Option.some.inj h).symm⟩
  | release ticket =>
    unfold step at h
    obtain ⟨hif, hs'⟩ := Option.ite_none_right_eq_some.mp h
    exact Or.inr (Or.inl ⟨ticket, rfl, hif.1, (Option.some.inj hs').symm⟩)
  | abort signal => exact Or.inr (Or.inr (Or.inl ⟨signal, rfl, (Option.some.inj h).symm⟩))
  | resume ticket =>
    unfold step at h
    obtain ⟨-, hs'⟩ := Option.ite_none_right_eq_some.mp h
    exact Or.inr (Or.inr (Or.inr (Or.inl ⟨ticket, rfl, (Option.some.inj hs').symm⟩)))
  | resize max maxQueued =>
    exact Or.inr (Or.inr (Or.inr (Or.inr ⟨max, maxQueued, rfl, (Option.some.inj h).symm⟩)))

/-- **Step lemma**: every operation keeps the bookkeeping, whatever the limits. -/
theorem step_inv {s s' : GatewaySemaphore} {a : SemaphoreAction} (hs : s.Inv) (h : s.step a = some s') :
    s'.Inv := by
  rcases step_cases h with ⟨signal, -, rfl⟩ | ⟨ticket, -, hheld, rfl⟩ | ⟨signal, -, rfl⟩ | ⟨ticket, -, rfl⟩ |
    ⟨max, maxQueued, -, rfl⟩
  · exact hs.acquire signal
  · exact hs.release hheld
  · exact (hs.abort signal).1
  · exact hs.resume ticket
  · exact hs.resize max maxQueued

theorem run_inv {max maxQueued : ℚ} {as : List SemaphoreAction} {s : GatewaySemaphore}
    (h : exec step (init max maxQueued) as = some s) : s.Inv :=
  exec_invariant' (fun _ _ _ hs hstep => step_inv hs hstep) as _ _ (init_inv max maxQueued) h

/-! ### The limits -/

/-- The bound on the slots, and nobody waits while one is free. -/
structure WithinMax (s : GatewaySemaphore) : Prop where
  whole : ∃ m : ℕ, s.max = m
  active_le : (s.active : ℚ) ≤ s.max
  full : s.waiting ≠ [] → (s.active : ℚ) = s.max

/-- What the semaphore promises while its limits stay the same. -/
structure Conserves (s : GatewaySemaphore) : Prop where
  /-- the counter counts the slots granted and not released -/
  active_eq : s.active = s.held.length
  held_nodup : s.held.Nodup
  active_le : (s.active : ℚ) ≤ s.max
  settles_once : (s.settlements.map Prod.fst).Nodup
  aborted_free : ∀ t, (t, Settlement.aborted) ∈ s.settlements → t ∉ s.held ∧ t ∉ s.handedOff
  /-- slots were handed on in the order of the calls, and all who still wait called later -/
  fifo : s.handedOff.Pairwise (· < ·) ∧ ∀ t ∈ s.handedOff, ∀ w ∈ s.waiting, t < w.ticket
  full : s.waiting ≠ [] → (s.active : ℚ) = s.max
  queue_le : (s.waiting.length : ℚ) ≤ s.maxQueued

/-- A change of the limits that neither cuts into the slots in use nor makes room before the eyes of those
who wait. -/
def Calm (s : GatewaySemaphore) : SemaphoreAction → Prop
  | .resize max _ => (∃ m : ℕ, max = m) ∧ (s.active : ℚ) ≤ max ∧ (s.waiting ≠ [] → max = s.max)
  | _ => True

section Limits

variable {s s' : GatewaySemaphore} {a : SemaphoreAction}

theorem WithinMax.acquire (hs : s.WithinMax) (signal : Option ℕ) : (s.acquire signal).WithinMax := by
  rcases s.acquire_eq signal with ⟨-, -, h⟩ | ⟨hwait, -, -, h⟩ | ⟨hwait, h⟩
  · exact h ▸ { hs with }
  · -- whoever parks finds every slot taken
    have hfull : (s.active : ℚ) = s.max := by
      rcases mustWait_eq_true.mp hwait with hle | hne
      · exact le_antisymm hs.active_le hle
      · exact hs.full hne
    exact h ▸ { hs with full := fun _ => hfull }
  · obtain ⟨hlt, hnil⟩ := mustWait_eq_false.mp hwait
    obtain ⟨m, hm⟩ := hs.whole
    have hlt' : s.active < (m : ℤ) := by exact_mod_cast hm ▸ hlt
    have hle : ((s.active + 1 : ℤ) : ℚ) ≤ s.max := by
      rw [hm]
      exact_mod_cast Int.add_one_le_iff.mpr hlt'
    exact h ▸ { hs with active_le := hle, full := fun hne => absurd hnil hne }

theorem WithinMax.release (hs : s.WithinMax) (hinv : s.Inv) (ticket : ℕ) : (s.release ticket).WithinMax := by
  rcases release_eq hinv ticket with ⟨w, rest, hw, h⟩ | ⟨hnil, h⟩
  · have hfull : (s.active : ℚ) = s.max := hs.full (by simp [hw])
    exact h ▸ { hs with full := fun _ => hfull }
  · have hle : ((s.active - 1 : ℤ) : ℚ) ≤ s.max := by
      have := hs.active_le
      push_cast
      linarith
    exact h ▸ { hs with active_le := hle, full := fun hne => absurd rfl hne }

theorem WithinMax.abort (hs : s.WithinMax) (hinv : s.Inv) (signal : ℕ) : (s.abort signal).WithinMax := by
  obtain ⟨-, hactive, -, hmax, -, hwaiting⟩ := hinv.abort signal
  refine ⟨hmax ▸ hs.whole, ?_, fun hne => ?_⟩
  · rw [hactive, hmax]
    exact hs.active_le
  · rw [hactive, hmax]
    refine hs.full fun hnil => hne ?_
    exact List.sublist_nil.mp (hnil ▸ hwaiting)

/-- Calm steps keep the bound. -/
theorem WithinMax.step (hs : s.WithinMax) (hinv : s.Inv) (hcalm : s.Calm a) (h : s.step a = some s') :
    s'.WithinMax := by
  rcases step_cases h with ⟨signal, -, rfl⟩ | ⟨ticket, -, -, rfl⟩ | ⟨signal, -, rfl⟩ | ⟨ticket, -, rfl⟩ |
    ⟨max, maxQueued, rfl, rfl⟩
  · exact hs.acquire signal
  · exact hs.release hinv ticket
  · exact hs.abort hinv signal
  · exact { hs with }
  · obtain ⟨hwhole, hle, hsame⟩ := hcalm
    exact ⟨hwhole, hle, fun hne => (hs.full hne).trans (hsame hne).symm⟩

/-- The queue keeps to a whole number of places as long as nobody changes it. -/
theorem queue_step {q : ℕ} (hinv : s.Inv) (hq : s.maxQueued = q) (hlen : s.waiting.length ≤ q)
    (ha : a.isResize = false) (h : s.step a = some s') :
    s'.max = s.max ∧ s'.maxQueued = q ∧ s'.waiting.length ≤ q := by
  rcases step_cases h with ⟨signal, -, rfl⟩ | ⟨ticket, -, -, rfl⟩ | ⟨signal, -, rfl⟩ | ⟨ticket, -, rfl⟩ |
    ⟨max, maxQueued, rfl, -⟩
  · rcases s.acquire_eq signal with ⟨-, -, h⟩ | ⟨-, -, hroom, h⟩ | ⟨-, h⟩
    · rw [h]
      exact ⟨rfl, hq, hlen⟩
    · rw [h]
      refine ⟨rfl, hq, ?_⟩
      have hlt : s.waiting.length < q := by exact_mod_cast hq ▸ hroom
      show (s.waiting ++ [_]).length ≤ q
      rw [List.length_append]
      exact hlt
    · rw [h]
      exact ⟨rfl, hq, hlen⟩
  · rcases release_eq hinv ticket with ⟨w, rest, hw, h⟩ | ⟨-, h⟩
    · rw [hw, List.length_cons] at hlen
      rw [h]
      exact ⟨rfl, hq, Nat.le_of_succ_le hlen⟩
    · rw [h]
      exact ⟨rfl, hq, Nat.zero_le _⟩
  · obtain ⟨-, -, -, hmax, hmaxQueued, hwaiting⟩ := hinv.abort signal
    exact ⟨hmax, hmaxQueued.trans hq, hwaiting.length_le.trans hlen⟩
  · exact ⟨rfl, hq, hlen⟩
  · exact absurd ha (by simp [SemaphoreAction.isResize])

end Limits

/-- A run without settings writes, under whole limits, stays within them. -/
theorem run_within {m q : ℕ} {as : List SemaphoreAction} {s : GatewaySemaphore}
    (has : ∀ a ∈ as, a.isResize = false) (h : exec step (init m q) as = some s) :
    s.WithinMax ∧ s.maxQueued = q ∧ s.waiting.length ≤ q := by
  have hinit : (init m q).Inv ∧ (init m q).WithinMax ∧ (init m q).maxQueued = q ∧
      (init m q).waiting.length ≤ q :=
    ⟨init_inv _ _, ⟨⟨m, rfl⟩, by simp [init], fun hne => absurd rfl hne⟩, rfl, Nat.zero_le _⟩
  refine (exec_invariant (I := fun s : GatewaySemaphore =>
    s.Inv ∧ s.WithinMax ∧ s.maxQueued = q ∧ s.waiting.length ≤ q)
    (fun s a s' hs ha hstep => ?_) as _ _ hinit (Every.of_forall has) h).2
  obtain ⟨hinv, hmax, hq, hlen⟩ := hs
  have hcalm : s.Calm a := by
    cases a with
    | resize max maxQueued => exact absurd ha (by simp [SemaphoreAction.isResize])
    | _ => trivial
  exact ⟨step_inv hinv hstep, hmax.step hinv hcalm hstep, (queue_step hinv hq hlen ha hstep).2⟩

/-- Calls without a signal while slots are free. -/
theorem exec_grants (max maxQueued : ℚ) (k : ℕ) (hk : ∀ j : ℕ, j < k → (j : ℚ) < max) :
    ∃ s, exec step (init max maxQueued) (List.replicate k (.acquire none)) = some s ∧
      s.active = k ∧ s.waiting = [] ∧ s.max = max ∧ s.maxQueued = maxQueued := by
  induction k with
  | zero => exact ⟨_, rfl, rfl, rfl, rfl, rfl⟩
  | succ k ih =>
    obtain ⟨s, hs, hactive, hwaiting, hmax, hmaxQueued⟩ := ih fun j hj => hk j (Nat.lt_succ_of_lt hj)
    have hfree : s.mustWait = false := by
      refine mustWait_eq_false.mpr ⟨?_, hwaiting⟩
      rw [hactive, hmax]
      exact_mod_cast hk k (Nat.lt_succ_self k)
    have hnext : s.step (.acquire none) = some { s.grant with tickets := s.tickets + 1 } := by
      rcases s.acquire_eq none with ⟨h, -⟩ | ⟨h, -⟩ | ⟨-, h⟩
      · rw [hfree] at h
        exact absurd h Bool.false_ne_true
      · rw [hfree] at h
        exact absurd h Bool.false_ne_true
      · exact congrArg some h
    refine ⟨{ s.grant with tickets := s.tickets + 1 }, ?_, ?_, hwaiting, hmax, hmaxQueued⟩
    · rw [List.replicate_succ', exec_append, hs, Option.bind_some, exec, hnext]
      rfl
    · show s.active + 1 = ((k + 1 : ℕ) : ℤ)
      rw [hactive]
      push_cast
      rfl

/-- Calls without a signal while no slot is free. -/
theorem exec_parks {s : GatewaySemaphore} (hfull : s.max ≤ s.active) (k : ℕ)
    (hk : ∀ j : ℕ, j < k → (j : ℚ) < s.maxQueued) (hnil : s.waiting = []) :
    ∃ s', exec step s (List.replicate k (.acquire none)) = some s' ∧
      s'.waiting.length = k ∧ s'.max = s.max ∧ s'.active = s.active ∧ s'.maxQueued = s.maxQueued := by
  induction k with
  | zero => exact ⟨s, rfl, by simp [hnil], rfl, rfl, rfl⟩
  | succ k ih =>
    obtain ⟨t, ht, hlen, hmax, hactive, hmaxQueued⟩ := ih fun j hj => hk j (Nat.lt_succ_of_lt hj)
    have hwait : t.mustWait = true := mustWait_eq_true.mpr (Or.inl (by rw [hmax, hactive]; exact hfull))
    have hroom : (t.waiting.length : ℚ) < t.maxQueued := by
      rw [hlen, hmaxQueued]
      exact hk k (Nat.lt_succ_self k)
    have hnext : t.step (.acquire none) = some { t.park none with tickets := t.tickets + 1 } := by
      rcases t.acquire_eq none with ⟨-, ⟨e, he⟩, -⟩ | ⟨-, -, -, h⟩ | ⟨h, -⟩
      · simp [refusal?, hwait, isAborted, not_le.mpr hroom] at he
      · exact congrArg some h
      · rw [hwait] at h
        exact absurd h.symm Bool.false_ne_true
    refine ⟨{ t.park none with tickets := t.tickets + 1 }, ?_, ?_, hmax, hactive, hmaxQueued⟩
    · rw [List.replicate_succ', exec_append, ht, Option.bind_some, exec, hnext]
      rfl
    · show (t.waiting ++ [_]).length = k + 1
      rw [List.length_append, hlen]
      rfl

/-- **With constant limits every run conserves its slots exactly when both limits are whole numbers**: a
fraction of a slot, or of a place in the queue, is given out as a whole one. -/
theorem conserves_iff (max maxQueued : ℚ) :
    (∀ (as : List SemaphoreAction) (s : GatewaySemaphore), (∀ a ∈ as, a.isResize = false) →
        exec step (init max maxQueued) as = some s → s.Conserves) ↔
      (∃ m : ℕ, max = m) ∧ ∃ q : ℕ, maxQueued = q := by
  constructor
  · intro hall
    have hquiet : ∀ k, ∀ a ∈ List.replicate k (SemaphoreAction.acquire none), a.isResize = false := by
      intro k a ha
      rw [List.eq_of_mem_replicate ha]
      rfl
    obtain ⟨s, hs, hactive, hnil, hmax, hmaxQueued⟩ :=
      exec_grants max maxQueued ⌈max⌉₊ fun j hj => Nat.lt_ceil.mp hj
    have hm : max = (⌈max⌉₊ : ℚ) := by
      have hle := (hall _ s (hquiet _) hs).active_le
      rw [hactive, hmax] at hle
      exact le_antisymm (Nat.le_ceil max) (by exact_mod_cast hle)
    have hfull : s.max ≤ s.active := by
      rw [hactive, hmax]
      exact_mod_cast Nat.le_ceil max
    obtain ⟨t, ht, hlen, -, -, hmaxQueued'⟩ :=
      exec_parks hfull ⌈maxQueued⌉₊ (fun j hj => hmaxQueued.symm ▸ Nat.lt_ceil.mp hj) hnil
    have hrun : exec step (init max maxQueued)
        (List.replicate ⌈max⌉₊ (.acquire none) ++ List.replicate ⌈maxQueued⌉₊ (.acquire none)) = some t := by
      rw [exec_append, hs, Option.bind_some]
      exact ht
    have hq : maxQueued = (⌈maxQueued⌉₊ : ℚ) := by
      have hle := (hall _ t (fun a ha => ?_) hrun).queue_le
      · rw [hlen, hmaxQueued', hmaxQueued] at hle
        exact le_antisymm (Nat.le_ceil maxQueued) hle
      · exact (List.mem_append.mp ha).elim (hquiet _ a) (hquiet _ a)
    exact ⟨⟨_, hm⟩, ⟨_, hq⟩⟩
  · rintro ⟨⟨m, rfl⟩, q, rfl⟩ as s has h
    have hinv := run_inv h
    obtain ⟨hmax, hq, hlen⟩ := run_within has h
    exact
      { active_eq := hinv.active_eq
        held_nodup := hinv.held_nodup
        active_le := hmax.active_le
        settles_once := hinv.settlements_nodup
        aborted_free := hinv.aborted_free
        fifo := ⟨hinv.handedOff_sorted, hinv.handedOff_first⟩
        full := hmax.full
        queue_le := by rw [hq]; exact_mod_cast hlen }

/-- One and a half slots are two. -/
theorem not_conserves_fraction :
    ¬ ∀ (as : List SemaphoreAction) (s : GatewaySemaphore), (∀ a ∈ as, a.isResize = false) →
      exec step (init (3 / 2) 64) as = some s → s.Conserves := by
  intro hall
  obtain ⟨s, hs, hactive, -, hmax, -⟩ := exec_grants (3 / 2) 64 2 fun j hj => by
    have : (j : ℚ) ≤ 1 := by exact_mod_cast Nat.le_of_lt_succ hj
    linarith
  have hle := (hall _ s (by simp [SemaphoreAction.isResize]) hs).active_le
  rw [hactive, hmax] at hle
  norm_num at hle

/-! ### Changing limits -/

/-- The operation keeps to the limits of its time: whoever is granted a slot leaves no more than `max()` in
use, and no live waiter stays parked behind an acquire or a release while a slot is free. -/
def KeepsLimits (s : GatewaySemaphore) (a : SemaphoreAction) : Prop :=
  ∀ s', s.step a = some s' →
    ((∃ t ∈ s'.held, t ∉ s.held) → (s'.active : ℚ) ≤ s'.max) ∧
      ((∃ signal, a = .acquire signal) ∨ (∃ ticket, a = .release ticket) →
        ∀ w ∈ s'.waiting, w.ticket ∉ s'.settled → s'.max ≤ (s'.active : ℚ))

/-- The operation finds slots and waiters in balance: a release that finds a waiter finds no slot in use
too many, and if it finds two, none too few; an acquire finds waiters only when no slot is free, and a free
slot only when a whole one is. -/
def InBalance (s : GatewaySemaphore) : SemaphoreAction → Prop
  | .acquire _ =>
    (s.waiting ≠ [] → s.max ≤ (s.active : ℚ)) ∧
      (s.waiting = [] → (s.active : ℚ) < s.max → (s.active : ℚ) + 1 ≤ s.max)
  | .release _ =>
    (s.waiting ≠ [] → (s.active : ℚ) ≤ s.max) ∧ (2 ≤ s.waiting.length → s.max ≤ (s.active : ℚ))
  | _ => True

section Balance

variable {s s' : GatewaySemaphore}

/-- An acquire or a release that leads to `s'` keeps the limits exactly when this holds of `s'`. -/
theorem keepsLimits_iff {a : SemaphoreAction} (hs : s.Inv) (h : s.step a = some s')
    (ha : (∃ signal, a = .acquire signal) ∨ ∃ ticket, a = .release ticket) :
    s.KeepsLimits a ↔ ((∃ t ∈ s'.held, t ∉ s.held) → (s'.active : ℚ) ≤ s'.max) ∧
      (s'.waiting ≠ [] → s'.max ≤ (s'.active : ℚ)) := by
  have hlive := (step_inv hs h).waiting_unsettled
  constructor
  · intro hkeeps
    obtain ⟨hgrant, hwait⟩ := hkeeps s' h
    refine ⟨hgrant, fun hne => ?_⟩
    obtain ⟨w, hw⟩ := List.exists_mem_of_ne_nil _ hne
    exact hwait ha w hw (hlive w hw)
  · rintro ⟨hgrant, hwait⟩ t ht
    obtain rfl : s' = t := Option.some.inj (h.symm.trans ht)
    exact ⟨hgrant, fun _ w hw _ => hwait (List.ne_nil_of_mem hw)⟩

theorem keepsLimits_acquire (hs : s.Inv) (signal : Option ℕ) :
    s.KeepsLimits (.acquire signal) ↔ s.InBalance (.acquire signal) := by
  have hstep : s.step (.acquire signal) = some (s.acquire signal) := rfl
  rw [keepsLimits_iff hs hstep (Or.inl ⟨signal, rfl⟩)]
  rcases s.acquire_eq signal with ⟨hwait, -, h⟩ | ⟨hwait, -, -, h⟩ | ⟨hwait, h⟩
  · rw [h]
    constructor
    · rintro ⟨-, hne⟩
      refine ⟨hne, fun hnil hlt => ?_⟩
      rcases mustWait_eq_true.mp hwait with hle | hne'
      · exact absurd hlt (not_lt.mpr hle)
      · exact absurd hnil hne'
    · rintro ⟨hne, -⟩
      exact ⟨fun ⟨t, ht, ht'⟩ => absurd ht ht', hne⟩
  · rw [h]
    have hparked : (s.waiting ++ [⟨s.tickets, signal⟩] : List Waiter) ≠ [] := by simp
    constructor
    · rintro ⟨-, hne⟩
      have hle : s.max ≤ (s.active : ℚ) := hne hparked
      exact ⟨fun _ => hle, fun _ hlt => absurd hlt (not_lt.mpr hle)⟩
    · rintro ⟨hne, -⟩
      refine ⟨fun ⟨t, ht, ht'⟩ => absurd ht ht', fun _ => ?_⟩
      rcases mustWait_eq_true.mp hwait with hle | hne'
      · exact hle
      · exact hne hne'
  · rw [h]
    obtain ⟨hlt, hnil⟩ := mustWait_eq_false.mp hwait
    have hnew : s.tickets ∉ s.held := fun h => Nat.lt_irrefl _ (hs.held_lt _ h)
    have hcast : ((s.active + 1 : ℤ) : ℚ) = (s.active : ℚ) + 1 := by push_cast; rfl
    constructor
    · rintro ⟨hgrant, -⟩
      refine ⟨fun hne => absurd hnil hne, fun _ _ => ?_⟩
      rw [← hcast]
      exact hgrant ⟨s.tickets, List.mem_append_right _ (List.mem_singleton_self _), hnew⟩
    · rintro ⟨-, hroom⟩
      refine ⟨fun _ => ?_, fun hne => absurd hnil hne⟩
      exact hcast.trans_le (hroom hnil hlt)

theorem keepsLimits_release (hs : s.Inv) {ticket : ℕ} (hstep : s.step (.release ticket) = some s') :
    s.KeepsLimits (.release ticket) ↔ s.InBalance (.release ticket) := by
  rw [keepsLimits_iff hs hstep (Or.inr ⟨ticket, rfl⟩)]
  have hs' : s' = s.release ticket := by
    unfold step at hstep
    exact (Option.some.inj (Option.ite_none_right_eq_some.mp hstep).2).symm
  rcases release_eq hs ticket with ⟨w, rest, hw, h⟩ | ⟨hnil, h⟩
  · rw [hs', h]
    have hnew : w.ticket ∉ s.held := hs.waiting_not_held w (hw ▸ List.mem_cons_self)
    have hne : s.waiting ≠ [] := by simp [hw]
    have htwo : 2 ≤ s.waiting.length ↔ rest ≠ [] := by
      rw [hw, List.length_cons, ← List.length_pos_iff]
      omega
    constructor
    · rintro ⟨hgrant, hrest⟩
      refine ⟨fun _ => ?_, fun hlen => hrest (htwo.mp hlen)⟩
      exact hgrant ⟨w.ticket, List.mem_append_right _ (List.mem_singleton_self _), hnew⟩
    · rintro ⟨hle, hlen⟩
      exact ⟨fun _ => hle hne, fun hrest => hlen (htwo.mpr hrest)⟩
  · rw [hs', h]
    constructor
    · intro _
      exact ⟨fun hne => absurd hnil hne, fun hlen => absurd hlen (by simp [hnil])⟩
    · intro _
      exact ⟨fun ⟨t, ht, ht'⟩ => absurd (List.mem_of_mem_erase ht) ht', fun hne => absurd rfl hne⟩

end Balance

/-- An operation that is enabled keeps the limits exactly when it is in balance. -/
theorem keepsLimits_iff_inBalance {s s' : GatewaySemaphore} {a : SemaphoreAction} (hs : s.Inv)
    (h : s.step a = some s') : s.KeepsLimits a ↔ s.InBalance a := by
  -- the other operations grant nothing
  have hother : s'.held = s.held → (∀ signal, a ≠ .acquire signal) → (∀ ticket, a ≠ .release ticket) →
      s.KeepsLimits a := by
    intro hheld hacq hrel t ht
    obtain rfl : s' = t := Option.some.inj (h.symm.trans ht)
    refine ⟨fun ⟨u, hu, hu'⟩ => absurd (hheld ▸ hu) hu', ?_⟩
    rintro (⟨signal, ha⟩ | ⟨ticket, ha⟩)
    · exact absurd ha (hacq signal)
    · exact absurd ha (hrel ticket)
  rcases step_cases h with ⟨signal, rfl, -⟩ | ⟨ticket, rfl, -, -⟩ | ⟨signal, rfl, rfl⟩ | ⟨ticket, rfl, rfl⟩ |
    ⟨max, maxQueued, rfl, rfl⟩
  · exact keepsLimits_acquire hs signal
  · exact keepsLimits_release hs h
  · obtain ⟨-, -, hheld, -⟩ := hs.abort signal
    exact iff_of_true (hother hheld (by simp) (by simp)) trivial
  · exact iff_of_true (hother rfl (by simp) (by simp)) trivial
  · exact iff_of_true (hother rfl (by simp) (by simp)) trivial

theorem every_keepsLimits_iff {s s' : GatewaySemaphore} {as : List SemaphoreAction} (hs : s.Inv)
    (h : exec step s as = some s') : Every step KeepsLimits s as ↔ Every step InBalance s as :=
  every_congr (fun _ _ _ hs hstep => step_inv hs hstep)
    (fun _ _ _ hs hstep => keepsLimits_iff_inBalance hs hstep) as s s' hs h

/-- **Under limits that change, the operations of a run all keep to the current ones exactly when each
finds slots and waiters in balance.** -/
theorem run_keepsLimits_iff (max maxQueued : ℚ) (as : List SemaphoreAction) {s : GatewaySemaphore}
    (h : exec step (init max maxQueued) as = some s) :
    Every step KeepsLimits (init max maxQueued) as ↔ Every step InBalance (init max maxQueued) as :=
  every_keepsLimits_iff (init_inv max maxQueued) h

instance (s : GatewaySemaphore) : ∀ a, Decidable (s.InBalance a)
  | .acquire _ => inferInstanceAs (Decidable (_ ∧ _))
  | .release _ => inferInstanceAs (Decidable (_ ∧ _))
  | .abort _ => inferInstanceAs (Decidable True)
  | .resume _ => inferInstanceAs (Decidable True)
  | .resize _ _ => inferInstanceAs (Decidable True)

/-- Two slots taken, a third call parked, the limit raised to three, a slot handed on, a fourth call let in. -/
def steadyRun : List SemaphoreAction :=
  [.acquire none, .acquire none, .acquire none, .resize 3 64, .release 0, .acquire none]

/-- The limit may be raised while one call waits. -/
theorem run_keepsLimits_steady : Every step KeepsLimits (init 2 64) steadyRun := by
  obtain ⟨s, hs, -⟩ := Option.map_eq_some_iff.mp
    (show (exec step (init 2 64) steadyRun).map (fun s => s.held) = some [1, 2, 3] by decide +kernel)
  exact (run_keepsLimits_iff 2 64 _ hs).mpr (by decide +kernel)

/-- Two slots taken, a third call parked, the limit lowered to one, a slot released. -/
def shrinkRun : List SemaphoreAction :=
  [.acquire none, .acquire none, .acquire none, .resize 1 64, .release 0]

/-- One slot taken, two calls parked, the limit raised to three, the slot released. -/
def growRun : List SemaphoreAction :=
  [.acquire none, .acquire none, .acquire none, .resize 3 64, .release 0]

/-- The slot goes on to the waiter although one slot too many is in use; and only one waiter is woken for the
slots that came free. -/
theorem not_keepsLimits_resize :
    (∃ s, exec step (init 2 64) shrinkRun = some s ∧ ¬ Every step KeepsLimits (init 2 64) shrinkRun) ∧
      ∃ s, exec step (init 1 64) growRun = some s ∧ ¬ Every step KeepsLimits (init 1 64) growRun := by
  constructor
  · obtain ⟨s, hs, -⟩ := Option.map_eq_some_iff.mp
      (show (exec step (init 2 64) shrinkRun).map (fun s => s.held) = some [1, 2] by decide +kernel)
    refine ⟨s, hs, fun h => ?_⟩
    exact absurd ((every_keepsLimits_iff (init_inv 2 64) hs).mp h) (by decide +kernel)
  · obtain ⟨s, hs, -⟩ := Option.map_eq_some_iff.mp
      (show (exec step (init 1 64) growRun).map (fun s => s.held) = some [1] by decide +kernel)
    refine ⟨s, hs, fun h => ?_⟩
    exact absurd ((every_keepsLimits_iff (init_inv 1 64) hs).mp h) (by decide +kernel)

theorem WithinMax.inBalance {s : GatewaySemaphore} (hs : s.WithinMax) (a : SemaphoreAction) :
    s.InBalance a := by
  obtain ⟨m, hm⟩ := hs.whole
  cases a with
  | acquire signal =>
    refine ⟨fun hne => (hs.full hne).ge, fun _ hlt => ?_⟩
    rw [hm] at hlt ⊢
    have hlt' : s.active < (m : ℤ) := by exact_mod_cast hlt
    exact_mod_cast Int.add_one_le_iff.mpr hlt'
  | release ticket =>
    refine ⟨fun _ => hs.active_le, fun hlen => (hs.full fun hnil => ?_).ge⟩
    simp [hnil] at hlen
  | _ => trivial

/-- A run whose settings writes are calm keeps to the limits throughout. -/
theorem calm_run_inBalance {as : List SemaphoreAction} :
    ∀ {s : GatewaySemaphore}, s.Inv → s.WithinMax → Every step Calm s as → Every step InBalance s as := by
  induction as with
  | nil => exact fun _ _ _ => trivial
  | cons a as ih =>
    intro s hinv hs hcalm
    refine ⟨hs.inBalance a, fun s' hstep => ?_⟩
    exact ih (step_inv hinv hstep) (hs.step hinv hcalm.1 hstep) (hcalm.2 s' hstep)

end GatewaySemaphore

end AgyProxy

import AgyProxy.Server.SemaphoreSpec

/-!
# AgyProxy.Server.SemaphoreFairness — who waits at the gateway is served in turn

First come, first served, whatever the limits do in between.

* `NoOvertaking`: every slot is held by a call that came before all who wait.
* `ahead`: the waiters in front of a call; a release takes one of them away, or serves the call.
* `parked_served`: **bounded waiting**: the call holds a slot after as many releases as there are calls in front of
  it, and one more.
-/

namespace AgyProxy

open Lib

def SemaphoreAction.isRelease : SemaphoreAction → Bool
  | release _ => true
  | _ => false

namespace GatewaySemaphore

variable {s s' : GatewaySemaphore} {a : SemaphoreAction}

/-- Nobody who holds a slot came after somebody who waits. -/
def NoOvertaking (s : GatewaySemaphore) : Prop := ∀ t ∈ s.held, ∀ w ∈ s.waiting, t < w.ticket

/-- The waiters in front of the call. -/
def ahead (s : GatewaySemaphore) (ticket : ℕ) : ℕ := s.waiting.countP fun v => v.ticket < ticket

/-- The fast path is closed while somebody waits, and a hand-off takes the first of the queue. -/
theorem NoOvertaking.step (hinv : s.Inv) (hs : s.NoOvertaking) (h : s.step a = some s') : s'.NoOvertaking := by
  rcases step_cases h with ⟨signal, -, rfl⟩ | ⟨ticket, -, -, rfl⟩ | ⟨signal, -, rfl⟩ | ⟨ticket, -, rfl⟩ |
    ⟨max, maxQueued, -, rfl⟩
  · rcases s.acquire_eq signal with ⟨-, -, h⟩ | ⟨-, -, -, h⟩ | ⟨hwait, h⟩
    · rw [h]
      exact hs
    · rw [h]
      intro t ht w hw
      rcases List.mem_append.mp hw with hw | hw
      · exact hs t ht w hw
      · rw [List.mem_singleton.mp hw]
        exact hinv.held_lt t ht
    · rw [h]
      intro t _ w hw
      have hnil : s.waiting = [] := (mustWait_eq_false.mp hwait).2
      have hmem : w ∈ s.waiting := hw
      rw [hnil] at hmem
      exact absurd hmem List.not_mem_nil
  · rcases release_eq hinv ticket with ⟨v, rest, hv, h⟩ | ⟨-, h⟩
    · rw [h]
      have hsorted := hinv.waiting_sorted
      rw [hv] at hsorted
      intro t ht w hw
      rcases List.mem_append.mp ht with ht | ht
      · exact hs t (List.mem_of_mem_erase ht) w (hv ▸ List.mem_cons_of_mem v hw)
      · rw [List.mem_singleton.mp ht]
        exact List.rel_of_pairwise_cons hsorted hw
    · rw [h]
      intro t _ w hw
      exact absurd hw List.not_mem_nil
  · obtain ⟨-, -, hheld, -, -, hsub⟩ := hinv.abort signal
    intro t ht w hw
    exact hs t (hheld ▸ ht) w (hsub.subset hw)
  · exact hs
  · exact hs

/-- An abort of another signal leaves the waiter where it is. -/
theorem mem_foldl_onAbort {w : Waiter} :
    ∀ (ws : List Waiter) {s : GatewaySemaphore}, w ∉ ws → w ∈ s.waiting →
      w ∈ (ws.foldl GatewaySemaphore.onAbort s).waiting
  | [], _, _, hmem => hmem
  | v :: ws, s, hnot, hmem => by
    refine mem_foldl_onAbort ws (fun h => hnot (List.mem_cons_of_mem v h)) ?_
    unfold GatewaySemaphore.onAbort
    split
    · exact hmem
    · have hne : w ≠ v := fun h => hnot (h ▸ List.mem_cons_self)
      exact (List.mem_erase_of_ne hne).mpr hmem

theorem mem_abort {w : Waiter} {signal : ℕ} (hne : w.signal ≠ some signal) (hw : w ∈ s.waiting) :
    w ∈ (s.abort signal).waiting := by
  unfold GatewaySemaphore.abort
  split
  · exact hw
  · refine mem_foldl_onAbort _ (fun h => ?_) hw
    rw [List.mem_filter] at h
    exact hne (of_decide_eq_true h.2)

/-- **What one action does for a waiter** whose own signal stays quiet: it moves up, by one at a release, or the
release serves it. -/
theorem step_waiter (hinv : s.Inv) (h : s.step a = some s') {w : Waiter} (hw : w ∈ s.waiting)
    (hab : ∀ signal, w.signal = some signal → a ≠ .abort signal) :
    (w ∈ s'.waiting ∧ (if a.isRelease then 1 else 0) + s'.ahead w.ticket ≤ s.ahead w.ticket) ∨
      w.ticket ∈ s'.handedOff := by
  rcases step_cases h with ⟨signal, rfl, rfl⟩ | ⟨ticket, rfl, -, rfl⟩ | ⟨signal, rfl, rfl⟩ | ⟨ticket, rfl, rfl⟩ |
    ⟨max, maxQueued, rfl, rfl⟩
  · refine Or.inl ?_
    rcases s.acquire_eq signal with ⟨-, -, h⟩ | ⟨-, -, -, h⟩ | ⟨-, h⟩
    · rw [h]
      exact ⟨hw, le_of_eq (Nat.zero_add _)⟩
    · rw [h]
      refine ⟨List.mem_append_left _ hw, ?_⟩
      have hlast : ¬ decide (s.tickets < w.ticket) = true :=
        fun hlt => Nat.not_lt_of_lt (hinv.waiting_lt w hw) (of_decide_eq_true hlt)
      have hsame : (s.park signal).ahead w.ticket = s.ahead w.ticket := by
        unfold ahead park
        rw [List.countP_append, List.countP_singleton, if_neg hlast, Nat.add_zero]
      exact le_of_eq ((Nat.zero_add _).trans hsame)
    · rw [h]
      exact ⟨hw, le_of_eq (Nat.zero_add _)⟩
  · rcases release_eq hinv ticket with ⟨v, rest, hv, h⟩ | ⟨hnil, -⟩
    · have hsorted := hinv.waiting_sorted
      rw [hv] at hsorted hw
      rcases List.mem_cons.mp hw with rfl | hrest
      · exact Or.inr (h ▸ List.mem_append_right _ (List.mem_singleton_self w.ticket))
      · refine Or.inl ⟨h ▸ hrest, ?_⟩
        have hlt : v.ticket < w.ticket := List.rel_of_pairwise_cons hsorted hrest
        rw [h]
        unfold ahead
        rw [hv, List.countP_cons_of_pos (by simpa using hlt), Nat.add_comm]
        exact le_rfl
    · rw [hnil] at hw
      exact absurd hw List.not_mem_nil
  · have hne : w.signal ≠ some signal := fun h => hab signal h rfl
    obtain ⟨-, -, -, -, -, hsub⟩ := hinv.abort signal
    refine Or.inl ⟨mem_abort hne hw, ?_⟩
    exact le_trans (le_of_eq (Nat.zero_add _)) hsub.countP_le
  · exact Or.inl ⟨hw, le_of_eq (Nat.zero_add _)⟩
  · exact Or.inl ⟨hw, le_of_eq (Nat.zero_add _)⟩

theorem abort_handedOff (s : GatewaySemaphore) (signal : ℕ) : (s.abort signal).handedOff = s.handedOff := by
  have hfold : ∀ (ws : List Waiter) (t : GatewaySemaphore),
      (ws.foldl GatewaySemaphore.onAbort t).handedOff = t.handedOff := by
    intro ws
    induction ws with
    | nil => exact fun _ => rfl
    | cons w ws ih =>
      intro t
      refine (ih (t.onAbort w)).trans ?_
      unfold GatewaySemaphore.onAbort
      split
      · rfl
      · rfl
  unfold GatewaySemaphore.abort
  split
  · rfl
  · exact hfold _ s

/-- A slot handed over stays in the history. -/
theorem handedOff_step (hinv : s.Inv) (h : s.step a = some s') {t : ℕ} (ht : t ∈ s.handedOff) :
    t ∈ s'.handedOff := by
  rcases step_cases h with ⟨signal, -, rfl⟩ | ⟨ticket, -, -, rfl⟩ | ⟨signal, -, rfl⟩ | ⟨ticket, -, rfl⟩ |
    ⟨max, maxQueued, -, rfl⟩
  · rcases s.acquire_eq signal with ⟨-, -, h⟩ | ⟨-, -, -, h⟩ | ⟨-, h⟩
    · exact h ▸ ht
    · exact h ▸ ht
    · exact h ▸ ht
  · rcases release_eq hinv ticket with ⟨v, rest, -, h⟩ | ⟨-, h⟩
    · exact h ▸ List.mem_append_left _ ht
    · exact h ▸ ht
  · exact (abort_handedOff s signal).symm ▸ ht
  · exact ht
  · exact ht

/-- A waiter through a whole run. -/
theorem exec_waiter {w : Waiter} {bs : List SemaphoreAction}
    (hab : ∀ signal, w.signal = some signal → .abort signal ∉ bs) (hinv : s.Inv) (hs : s.NoOvertaking)
    (hw : w ∈ s.waiting) (h : exec step s bs = some s') :
    (w ∈ s'.waiting ∧ bs.countP SemaphoreAction.isRelease + s'.ahead w.ticket ≤ s.ahead w.ticket ∧
      ∀ t ∈ s'.held, t < w.ticket) ∨ w.ticket ∈ s'.handedOff := by
  induction bs generalizing s with
  | nil =>
    obtain rfl : s = s' := Option.some.inj h
    exact Or.inl ⟨hw, le_of_eq (Nat.zero_add _), fun t ht => hs t ht w hw⟩
  | cons a bs ih =>
    obtain ⟨t, ht, h⟩ := exec_cons h
    have hinv' : t.Inv := step_inv hinv ht
    have hquiet : ∀ signal, w.signal = some signal → .abort signal ∉ bs :=
      fun signal hsig hmem => hab signal hsig (List.mem_cons_of_mem a hmem)
    rcases step_waiter hinv ht hw fun signal hsig heq => hab signal hsig (heq ▸ List.mem_cons_self) with
      ⟨hwait, hle⟩ | hserved
    · refine (ih hquiet hinv' (hs.step hinv ht) hwait h).imp_left fun ⟨hmem, hle', hheld⟩ => ⟨hmem, ?_, hheld⟩
      rw [List.countP_cons]
      omega
    · refine Or.inr (exec_invariant' (I := fun s => s.Inv ∧ w.ticket ∈ s.handedOff) ?_ bs t s' ⟨hinv', hserved⟩ h).2
      exact fun s a s' hs hstep => ⟨step_inv hs.1 hstep, handedOff_step hs.1 hstep hs.2⟩

/-- **Bounded waiting.**  A call that is parked, and whose own signal does not fire, is served after as many
releases as there are calls in front of it, and one more; until then nobody who came later holds a slot.  Resizes,
new calls and aborts of others change nothing about it. -/
theorem parked_served (max maxQueued : ℚ) (as bs : List SemaphoreAction) (s s' : GatewaySemaphore) (w : Waiter)
    (h : exec step (init max maxQueued) as = some s) (hw : w ∈ s.waiting) (h' : exec step s bs = some s')
    (hab : ∀ signal, w.signal = some signal → .abort signal ∉ bs) :
    (s.ahead w.ticket < bs.countP SemaphoreAction.isRelease → w.ticket ∈ s'.handedOff) ∧
      (w.ticket ∉ s'.handedOff → w ∈ s'.waiting ∧
        bs.countP SemaphoreAction.isRelease + s'.ahead w.ticket ≤ s.ahead w.ticket ∧ ∀ t ∈ s'.held, t < w.ticket) := by
  have hinv : s.Inv ∧ s.NoOvertaking := by
    refine exec_invariant' (I := fun s => s.Inv ∧ s.NoOvertaking) ?_ as _ s ?_ h
    · exact fun s a s' hs hstep => ⟨step_inv hs.1 hstep, hs.2.step hs.1 hstep⟩
    · exact ⟨init_inv max maxQueued, fun t ht => absurd ht List.not_mem_nil⟩
  rcases exec_waiter hab hinv.1 hinv.2 hw h' with hwait | hserved
  · exact ⟨fun hlt => absurd hwait.2.1 (by omega), fun _ => hwait⟩
  · exact ⟨fun _ => hserved, fun hno => absurd hserved hno⟩

/-- A full gateway of one slot and the call that waits second. -/
def waitingSecond : GatewaySemaphore :=
  { max := 1
    maxQueued := 8
    active := 1
    waiting := [⟨1, none⟩, ⟨2, some 0⟩]
    settled := []
    listeners := [⟨2, some 0⟩]
    fired := []
    tickets := 3
    held := [0]
    handedOff := []
    settlements := [] }

/-- Two releases serve it, with a resize and a new call in between. -/
theorem parked_served_second : ∃ s', exec step waitingSecond
    [.release 0, .acquire none, .resize 5 8, .acquire none, .release 1] = some s' ∧ 2 ∈ s'.handedOff := by
  have hrun : exec step (init 1 8) [.acquire none, .acquire none, .acquire (some 0)] = some waitingSecond := rfl
  obtain ⟨s', hs', -⟩ := Option.map_eq_some_iff.mp
    (show (exec step waitingSecond [.release 0, .acquire none, .resize 5 8, .acquire none, .release 1]).map
      (fun s => s.held) = some [2] by decide +kernel)
  refine ⟨s', hs', ?_⟩
  exact (parked_served 1 8 _ _ _ s' ⟨2, some 0⟩ hrun (by decide) hs' (by simp)).1 (by decide)

end GatewaySemaphore

end AgyProxy

import Mathlib.Data.List.Basic
import Mathlib.Data.List.Nodup

/-!
# AgyProxy.Lib.Spool — a queue drained as a whole, that loses its oldest entries when it overflows

* `Spool`: what was sent, what waits, what was lost.
* `Spool.Accounts`: what was sent and what waits is what was accepted, in order, without what was lost; kept
  by `push`, `drain` and `overflow`.
-/

namespace AgyProxy.Lib

structure Spool (α : Type) where
  sent : List α
  queue : List α
  lost : List α

namespace Spool

section Spool

variable {α : Type}

def push (s : Spool α) (x : α) : Spool α := { s with queue := s.queue ++ [x] }

/-- Everything that waits is sent. -/
def drain (s : Spool α) : Spool α := { s with sent := s.sent ++ s.queue, queue := [] }

/-- The oldest entries over the cap are lost. -/
def overflow (s : Spool α) (cap : ℕ) : Spool α :=
  { s with
    queue := s.queue.drop (s.queue.length - cap)
    lost := s.lost ++ s.queue.take (s.queue.length - cap) }

theorem overflow_of_le {s : Spool α} {cap : ℕ} (h : s.queue.length ≤ cap) : s.overflow cap = s := by
  unfold overflow
  rw [Nat.sub_eq_zero_of_le h, List.drop_zero, List.take_zero, List.append_nil]

theorem length_overflow (s : Spool α) (cap : ℕ) : (s.overflow cap).queue.length = min s.queue.length cap := by
  show (s.queue.drop (s.queue.length - cap)).length = _
  rw [List.length_drop]
  omega

variable [DecidableEq α]

/-- Nothing was duplicated or reordered, and only what is listed was lost. -/
structure Accounts (s : Spool α) (accepted : List α) : Prop where
  kept : s.sent ++ s.queue = accepted.filter fun x => decide (x ∉ s.lost)
  lost : s.lost ⊆ accepted

variable {s : Spool α} {accepted : List α}

theorem accounts_empty : (⟨[], [], []⟩ : Spool α).Accounts [] := ⟨rfl, List.nil_subset _⟩

theorem Accounts.push (h : s.Accounts accepted) {x : α} (hx : x ∉ accepted) :
    (s.push x).Accounts (accepted ++ [x]) := by
  have hlost : x ∉ s.lost := fun hmem => hx (h.lost hmem)
  refine ⟨?_, fun y hy => List.mem_append_left _ (h.lost hy)⟩
  show s.sent ++ (s.queue ++ [x]) = (accepted ++ [x]).filter fun y => decide (y ∉ s.lost)
  rw [← List.append_assoc, h.kept, List.filter_append, List.filter_singleton, decide_eq_true hlost]
  rfl

theorem Accounts.drain (h : s.Accounts accepted) : s.drain.Accounts accepted := by
  refine ⟨?_, h.lost⟩
  show s.sent ++ s.queue ++ [] = _
  rw [List.append_nil]
  exact h.kept

theorem Accounts.queue_subset (h : s.Accounts accepted) : s.queue ⊆ accepted := by
  intro x hx
  have hmem : x ∈ s.sent ++ s.queue := List.mem_append_right _ hx
  rw [h.kept] at hmem
  exact (List.mem_filter.mp hmem).1

theorem Accounts.nodup (h : s.Accounts accepted) (hnodup : accepted.Nodup) : (s.sent ++ s.queue).Nodup := by
  rw [h.kept]
  exact hnodup.filter _

theorem Accounts.overflow (h : s.Accounts accepted) (hnodup : accepted.Nodup) (cap : ℕ) :
    (s.overflow cap).Accounts accepted := by
  set n := s.queue.length - cap
  have hsplit : s.queue.take n ++ s.queue.drop n = s.queue := List.take_append_drop _ _
  have hall : (s.sent ++ (s.queue.take n ++ s.queue.drop n)).Nodup := by
    rw [hsplit]
    exact h.nodup hnodup
  refine ⟨?_, ?_⟩
  · show s.sent ++ s.queue.drop n = accepted.filter fun x => decide (x ∉ s.lost ++ s.queue.take n)
    have hboth : (fun x => decide (x ∉ s.lost ++ s.queue.take n)) =
        fun x => decide (x ∉ s.queue.take n) && decide (x ∉ s.lost) := by
      funext x
      rw [← Bool.decide_and]
      refine decide_eq_decide.mpr ?_
      rw [List.mem_append, not_or]
      exact and_comm
    rw [hboth, ← List.filter_filter, ← h.kept]
    have hparts := List.nodup_append.mp hall
    have hqueue := List.nodup_append.mp hparts.2.1
    -- what is sent and what stays are disjoint from what overflows
    have hsent : s.sent.filter (fun x => decide (x ∉ s.queue.take n)) = s.sent := by
      refine List.filter_eq_self.mpr fun x hx => decide_eq_true fun hmem => ?_
      exact hparts.2.2 x hx x (List.mem_append_left _ hmem) rfl
    have hkept : s.queue.filter (fun x => decide (x ∉ s.queue.take n)) = s.queue.drop n := by
      conv_lhs => rw [← hsplit]
      rw [List.filter_append, hsplit]
      have hnone : (s.queue.take n).filter (fun x => decide (x ∉ s.queue.take n)) = [] :=
        List.filter_eq_nil_iff.mpr fun x hx hd => of_decide_eq_true hd hx
      have hdrop : (s.queue.drop n).filter (fun x => decide (x ∉ s.queue.take n)) = s.queue.drop n := by
        refine List.filter_eq_self.mpr fun x hx => decide_eq_true fun hmem => ?_
        exact hqueue.2.2 x hmem x hx rfl
      rw [hnone, hdrop, List.nil_append]
    rw [List.filter_append, hsent, hkept]
  · intro x hx
    rcases List.mem_append.mp hx with hx | hx
    · exact h.lost hx
    · exact h.queue_subset (List.mem_of_mem_take hx)

end Spool

end Spool

end AgyProxy.Lib

import AgyProxy.Lib.Window

/-!
# AgyProxy.Lib.SerialQueue — queues that serve one job at a time, and events kept apart

* `SerialQueue`: a store of such queues, by what its calls promise: the jobs are served in the order they came, the
  first one at once; `SerialQueue.list`: one that keeps the promise.
* `Spaced d`: each event comes `d` instants after the last or later; `Spaced.bounded`: **a stretch of `n * d` instants
  has at most `n` of them**.
-/

namespace AgyProxy.Lib

/-- A queue of concurrency one.  `jobs` is what it holds, the one that is being served first. -/
structure SerialQueue (J : Type) where
  Store : Type
  fresh : Store
  add : Store → J → Store
  /-- the job that was being served is over -/
  next : Store → Store
  /-- the job that is being served -/
  running : Store → Option J
  jobs : Store → List J
  jobs_fresh : jobs fresh = []
  jobs_add : ∀ q j, jobs (add q j) = jobs q ++ [j]
  jobs_next : ∀ q, jobs (next q) = (jobs q).tail
  running_eq : ∀ q, running q = (jobs q).head?

namespace SerialQueue

/-- A queue that is the list of its jobs. -/
def list (J : Type) : SerialQueue J where
  Store := List J
  fresh := []
  add q j := q ++ [j]
  next := List.tail
  running := List.head?
  jobs := id
  jobs_fresh := rfl
  jobs_add _ _ := rfl
  jobs_next _ := rfl
  running_eq _ := rfl

variable {J : Type} (P : SerialQueue J)

theorem running_some {q : P.Store} {j : J} (h : P.running q = some j) : P.jobs q = j :: P.jobs (P.next q) := by
  rw [P.running_eq] at h
  rw [P.jobs_next]
  exact (List.cons_head?_tail h).symm

theorem running_none {q : P.Store} : P.running q = none ↔ P.jobs q = [] := by
  rw [P.running_eq, List.head?_eq_none_iff]

end SerialQueue

/-! ### Events kept apart -/

/-- Each event comes `d` instants after the ones before it, or later. -/
def Spaced (d : ℕ) (times : List ℕ) : Prop := times.Pairwise fun a b => a + d ≤ b

section Spaced

variable {d now : ℕ} {times : List ℕ}

theorem Spaced.concat (h : Spaced d times) (hlast : ∀ x ∈ times, x + d ≤ now) : Spaced d (times ++ [now]) :=
  List.pairwise_append.mpr ⟨h, List.pairwise_singleton _ _, fun x hx _ hy => List.mem_singleton.mp hy ▸ hlast x hx⟩

/-- The events of a stretch: the first takes one of the `n` places, and the rest lie `d` instants further on. -/
theorem Spaced.length_le (h : Spaced d times) {n t : ℕ} (hin : ∀ x ∈ times, t ≤ x ∧ x < t + n * d) :
    times.length ≤ n := by
  induction times generalizing n t with
  | nil => exact Nat.zero_le n
  | cons x times ih =>
    obtain ⟨hfirst, hrest⟩ := List.pairwise_cons.mp h
    obtain ⟨hle, hlt⟩ := hin x List.mem_cons_self
    cases n with
    | zero => omega
    | succ n =>
      have hlater : ∀ y ∈ times, t + d ≤ y ∧ y < t + d + n * d := by
        intro y hy
        have hgap := hfirst y hy
        have hend := (hin y (List.mem_cons_of_mem x hy)).2
        rw [Nat.succ_mul] at hend
        omega
      exact Nat.succ_le_succ (ih hrest hlater)

/-- **A stretch** of `n * d` instants has at most `n` events. -/
theorem Spaced.bounded (h : Spaced d times) (n : ℕ) : Bounded (n * d) n times := by
  intro t
  have hsub : Spaced d (inWindow (n * d) t times) := List.Pairwise.sublist List.filter_sublist h
  exact hsub.length_le fun x hx => of_decide_eq_true (List.mem_filter.mp hx).2

end Spaced

end AgyProxy.Lib

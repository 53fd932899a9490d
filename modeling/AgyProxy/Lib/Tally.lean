import Mathlib.Data.Finset.Erase
import Mathlib.Data.Finset.Insert
import Mathlib.Tactic.SplitIfs

/-!
# AgyProxy.Lib.Tally — a map of positive counters, and the set of its keys

Owners come and go, and each counts for at most one key.

* `load`: how many owners of a list count for a key.
* `Counts`: the map has an entry for every key that is counted for, and the set has these keys.
* `Counts.add`, `Counts.sub`: one owner more and one less.
* `load_concat`, `load_set`, `load_map`: what a change of the list does to the loads.
-/

namespace AgyProxy.Lib

section Load

variable {C K : Type} [DecidableEq K] (f : C → Option K)

/-- How many owners count for the key. -/
def load (cs : List C) (k : K) : ℕ := cs.countP fun c => decide (f c = some k)

theorem load_concat (cs : List C) (c : C) (k : K) :
    load f (cs ++ [c]) k = load f cs k + if f c = some k then 1 else 0 := by
  unfold load
  rw [List.countP_append, List.countP_singleton]
  simp only [decide_eq_true_eq]

/-- The key of a list's owner is counted for. -/
theorem load_pos {cs : List C} {c : C} (hc : c ∈ cs) {k : K} (hk : f c = some k) : 0 < load f cs k :=
  List.countP_pos_iff.mpr ⟨c, hc, decide_eq_true hk⟩

theorem load_set {cs : List C} {i : ℕ} {c : C} (hi : cs[i]? = some c) (c' : C) (k : K) :
    load f (cs.set i c') k = load f cs k - (if f c = some k then 1 else 0) + if f c' = some k then 1 else 0 := by
  obtain ⟨hlt, rfl⟩ := List.getElem?_eq_some_iff.mp hi
  unfold load
  rw [List.countP_set hlt]
  simp only [decide_eq_true_eq]

/-- Owners changed in a way that leaves their keys. -/
theorem load_map {g : C → C} (hg : ∀ c, f (g c) = f c) (cs : List C) (k : K) : load f (cs.map g) k = load f cs k := by
  unfold load
  rw [List.countP_map]
  congr 1
  funext c
  show decide (f (g c) = some k) = _
  rw [hg c]

end Load

section Counts

variable {K : Type} {count : K → Option ℤ} {marked : Finset K} {n : K → ℕ}

structure Counts (count : K → Option ℤ) (marked : Finset K) (n : K → ℕ) : Prop where
  count_eq : ∀ k, count k = if n k = 0 then none else some (n k : ℤ)
  mem_marked : ∀ k, k ∈ marked ↔ n k ≠ 0

theorem Counts.empty : Counts (fun _ : K => none) ∅ fun _ => 0 :=
  ⟨fun _ => rfl, fun k => iff_of_false (Finset.notMem_empty k) fun h => h rfl⟩

variable [DecidableEq K]

/-- One more counts for the key. -/
theorem Counts.add (h : Counts count marked n) (k : K) :
    Counts (Function.update count k (some ((count k).getD 0 + 1))) (insert k marked)
      fun j => n j + if k = j then 1 else 0 := by
  constructor
  · intro j
    by_cases hj : k = j
    · subst hj
      have hvalue : (count k).getD 0 = (n k : ℤ) := by
        rw [h.count_eq k]
        split_ifs with hzero
        · rw [hzero]
          rfl
        · rw [Option.getD_some]
      rw [Function.update_self, hvalue, if_pos rfl, if_neg (Nat.succ_ne_zero _)]
      rfl
    · rw [Function.update_of_ne (Ne.symm hj), if_neg hj, Nat.add_zero]
      exact h.count_eq j
  · intro j
    rw [Finset.mem_insert, h.mem_marked j]
    by_cases hj : k = j
    · subst hj
      exact iff_of_true (Or.inl rfl) (by rw [if_pos rfl]; exact Nat.succ_ne_zero _)
    · rw [if_neg hj, Nat.add_zero, or_iff_right (Ne.symm hj)]

/-- One counts for the key no more; the entry goes with the last. -/
theorem Counts.sub (h : Counts count marked n) (k : K) :
    Counts (Function.update count k (if (count k).getD 1 - 1 ≤ 0 then none else some ((count k).getD 1 - 1)))
      (if (count k).getD 1 - 1 ≤ 0 then marked.erase k else marked) fun j => n j - if k = j then 1 else 0 := by
  have hlast : (count k).getD 1 - 1 ≤ 0 ↔ n k - 1 = 0 := by
    rw [h.count_eq k]
    split_ifs with hzero
    · exact iff_of_true (by decide) (by omega)
    · rw [Option.getD_some]
      omega
  constructor
  · intro j
    by_cases hj : k = j
    · subst hj
      rw [Function.update_self, if_pos rfl]
      by_cases hzero : n k - 1 = 0
      · rw [if_pos (hlast.mpr hzero), if_pos hzero]
      · have hvalue : (count k).getD 1 - 1 = ((n k - 1 : ℕ) : ℤ) := by
          rw [h.count_eq k, if_neg (by omega), Option.getD_some]
          omega
        rw [if_neg (mt hlast.mp hzero), if_neg hzero, hvalue]
    · rw [Function.update_of_ne (Ne.symm hj), if_neg hj, Nat.sub_zero]
      exact h.count_eq j
  · intro j
    have hj := h.mem_marked j
    by_cases hkj : k = j
    · subst hkj
      rw [if_pos rfl]
      split_ifs with hle
      · exact iff_of_false (fun hmem => (Finset.mem_erase.mp hmem).1 rfl) fun hne => hne (hlast.mp hle)
      · exact iff_of_true (hj.mpr (by omega)) (mt hlast.mpr hle)
    · rw [if_neg hkj, Nat.sub_zero, ← hj]
      split_ifs with hle
      · rw [Finset.mem_erase, and_iff_right (Ne.symm hkj)]
      · exact Iff.rfl

end Counts

end AgyProxy.Lib

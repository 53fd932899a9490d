import Mathlib.Data.List.Basic
import Mathlib.Order.Lattice

/-!
# AgyProxy.Lib.FirstLeast — the first of the elements of least rank

* `FirstLeast rank l x`: everything before `x` ranks higher, everything after it no lower.
* `FirstLeast.cons`, `FirstLeast.cons_cons`: the two steps of a scan that keeps the best so far.
-/

namespace AgyProxy.Lib

section FirstLeast

variable {α R : Type} [LinearOrder R] {rank : α → R} {l : List α} {x y b c : α}

def FirstLeast (rank : α → R) (l : List α) (x : α) : Prop :=
  ∃ before after, l = before ++ x :: after ∧ (∀ y ∈ before, rank x < rank y) ∧ ∀ y ∈ after, rank x ≤ rank y

namespace FirstLeast

theorem mem (h : FirstLeast rank l x) : x ∈ l := by
  obtain ⟨before, after, rfl, -, -⟩ := h
  exact List.mem_append_right _ List.mem_cons_self

theorem le (h : FirstLeast rank l x) (hy : y ∈ l) : rank x ≤ rank y := by
  obtain ⟨before, after, rfl, hbefore, hafter⟩ := h
  rcases List.mem_append.mp hy with hy | hy
  · exact (hbefore y hy).le
  · rcases List.mem_cons.mp hy with rfl | hy
    · exact le_rfl
    · exact hafter y hy

theorem head (h : ∀ y ∈ l, rank x ≤ rank y) : FirstLeast rank (x :: l) x :=
  ⟨[], l, rfl, fun _ hy => absurd hy List.not_mem_nil, h⟩

/-- A head that ranks higher does not count. -/
theorem cons (h : FirstLeast rank l x) (hb : rank x < rank b) : FirstLeast rank (b :: l) x := by
  obtain ⟨before, after, rfl, hbefore, hafter⟩ := h
  refine ⟨b :: before, after, rfl, ?_, hafter⟩
  rintro y hy
  rcases List.mem_cons.mp hy with rfl | hy
  · exact hb
  · exact hbefore y hy

/-- An element that ranks no lower than the head before it does not count. -/
theorem cons_cons (h : FirstLeast rank (b :: l) x) (hc : rank b ≤ rank c) : FirstLeast rank (b :: c :: l) x := by
  obtain ⟨before, after, heq, hbefore, hafter⟩ := h
  cases before with
  | nil =>
    obtain ⟨rfl, rfl⟩ := List.cons.inj heq
    refine head fun y hy => ?_
    rcases List.mem_cons.mp hy with rfl | hy
    · exact hc
    · exact hafter y hy
  | cons b' before =>
    obtain ⟨rfl, rfl⟩ := List.cons.inj heq
    have hb := hbefore b List.mem_cons_self
    refine ⟨b :: c :: before, after, rfl, ?_, hafter⟩
    rintro y hy
    rcases List.mem_cons.mp hy with rfl | hy
    · exact hb
    · rcases List.mem_cons.mp hy with rfl | hy
      · exact hb.trans_le hc
      · exact hbefore y (List.mem_cons_of_mem _ hy)

end FirstLeast

end FirstLeast

end AgyProxy.Lib

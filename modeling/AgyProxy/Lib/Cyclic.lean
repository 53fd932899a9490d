import Mathlib.Data.List.Rotate

/-!
# AgyProxy.Lib.Cyclic — a list read in a circle

* `cyclicAfter l i`: the other elements of `l`, from the one after position `i` on.
* `cons_cyclicAfter`: with the element at `i` before them they are a rotation of `l`.
* `NearestAfter p l i x`: `x` is the nearest element with `p` after position `i`; what `find?` finds.
* `FirstWith p l x`: `x` is the first element with `p`; the head of a `filter`.
-/

namespace AgyProxy.Lib

section Cyclic

variable {α : Type} {l : List α} {i : ℕ} {x : α} {p : α → Bool}

def cyclicAfter (l : List α) (i : ℕ) : List α :=
  (List.range' 1 (l.length - 1)).filterMap fun k => l[(i + k) % l.length]?

/-- Every position of the walk around holds an element. -/
theorem map_some_cyclicAfter (l : List α) (i : ℕ) :
    (List.range' 1 (l.length - 1)).map (fun k => l[(i + k) % l.length]?) = (l.rotate i).tail.map some := by
  refine List.ext_getElem? fun k => ?_
  rw [List.getElem?_map, List.getElem?_map, List.getElem?_tail]
  by_cases hk : k + 1 < l.length
  · have hlt : k < (List.range' 1 (l.length - 1)).length := by
      rw [List.length_range']
      omega
    have hmod : (i + (1 + k)) % l.length < l.length := Nat.mod_lt _ (by omega)
    rw [List.getElem?_eq_getElem hlt, List.getElem_range', Nat.one_mul, List.getElem?_rotate hk, Option.map_some,
      show k + 1 + i = i + (1 + k) by omega, List.getElem?_eq_getElem hmod, Option.map_some]
  · have hrange : (List.range' 1 (l.length - 1))[k]? = none := by
      rw [List.getElem?_eq_none_iff, List.length_range']
      omega
    have hrotate : (l.rotate i)[k + 1]? = none := by
      rw [List.getElem?_eq_none_iff, List.length_rotate]
      omega
    rw [hrange, hrotate, Option.map_none, Option.map_none]

theorem cyclicAfter_eq_tail (l : List α) (i : ℕ) : cyclicAfter l i = (l.rotate i).tail := by
  calc cyclicAfter l i
      = ((List.range' 1 (l.length - 1)).map fun k => l[(i + k) % l.length]?).filterMap id := by
        rw [List.filterMap_map]
        rfl
    _ = ((l.rotate i).tail.map some).filterMap id := by rw [map_some_cyclicAfter]
    _ = (l.rotate i).tail := by
        rw [List.filterMap_map]
        exact List.filterMap_some

theorem cons_cyclicAfter (hx : l[i]? = some x) : x :: cyclicAfter l i = l.rotate i := by
  have hi : i < l.length := (List.getElem?_eq_some_iff.mp hx).1
  have hhead : (l.rotate i)[0]? = some x := by
    rw [List.getElem?_rotate (Nat.zero_lt_of_lt hi), Nat.zero_add, Nat.mod_eq_of_lt hi, hx]
  rw [cyclicAfter_eq_tail]
  cases hl : l.rotate i with
  | nil => rw [hl] at hhead; exact absurd hhead (Option.some_ne_none x).symm
  | cons y rest =>
    rw [hl] at hhead
    rw [Option.some.inj hhead, List.tail_cons]

/-- The walk meets every other element. -/
theorem mem_cyclicAfter {y : α} (hx : l[i]? = some x) (hy : y ∈ l) (hne : y ≠ x) : y ∈ cyclicAfter l i := by
  have hmem : y ∈ x :: cyclicAfter l i := by
    rw [cons_cyclicAfter hx]
    exact List.mem_rotate.mpr hy
  exact (List.mem_cons.mp hmem).resolve_left hne

theorem mem_of_mem_cyclicAfter {y : α} (hy : y ∈ cyclicAfter l i) : y ∈ l := by
  rw [cyclicAfter_eq_tail] at hy
  exact List.mem_rotate.mp (List.mem_of_mem_tail hy)

def NearestAfter (p : α → Prop) (l : List α) (i : ℕ) (x : α) : Prop :=
  ∃ d, 0 < d ∧ d < l.length ∧ l[(i + d) % l.length]? = some x ∧ p x ∧
    ∀ e, 0 < e → e < d → ∀ y, l[(i + e) % l.length]? = some y → ¬ p y

/-- What stands at a position of the walk. -/
theorem getElem?_cyclicAfter {k : ℕ} (hk : k + 1 < l.length) :
    (cyclicAfter l i)[k]? = l[(i + (k + 1)) % l.length]? := by
  rw [cyclicAfter_eq_tail, List.getElem?_tail, List.getElem?_rotate hk, Nat.add_comm (k + 1) i]

theorem NearestAfter.congr {p q : α → Prop} (h : ∀ y ∈ l, p y ↔ q y) (hx : NearestAfter p l i x) :
    NearestAfter q l i x := by
  obtain ⟨d, hd, hlt, hxd, hp, hbefore⟩ := hx
  refine ⟨d, hd, hlt, hxd, (h x (List.mem_of_getElem? hxd)).mp hp, ?_⟩
  intro e he hed y hy hq
  exact hbefore e he hed y hy ((h y (List.mem_of_getElem? hy)).mpr hq)

theorem nearestAfter_of_find? (h : (cyclicAfter l i).find? p = some x) : NearestAfter (fun y => p y = true) l i x := by
  obtain ⟨hp, k, hk, hxk, hbefore⟩ := List.find?_eq_some_iff_getElem.mp h
  have hlen : (cyclicAfter l i).length = l.length - 1 := by
    rw [cyclicAfter_eq_tail, List.length_tail, List.length_rotate]
  have hk' : k + 1 < l.length := by omega
  refine ⟨k + 1, k.succ_pos, hk', ?_, hp, ?_⟩
  · rw [← getElem?_cyclicAfter hk', List.getElem?_eq_getElem hk, hxk]
  · rintro e he hek y hy
    obtain ⟨j, rfl⟩ : ∃ j, e = j + 1 := ⟨e - 1, by omega⟩
    have hj : j < k := by omega
    rw [← getElem?_cyclicAfter (by omega), List.getElem?_eq_getElem (by omega)] at hy
    have hnot := hbefore j hj
    rw [Option.some.inj hy, Bool.not_eq_true'] at hnot
    exact Bool.eq_false_iff.mp hnot

def FirstWith (p : α → Prop) (l : List α) (x : α) : Prop :=
  ∃ before after, l = before ++ x :: after ∧ p x ∧ ∀ y ∈ before, ¬ p y

theorem firstWith_of_filter {rest : List α} (h : l.filter p = x :: rest) : FirstWith (fun y => p y = true) l x := by
  obtain ⟨before, after, hl, hbefore, hx, -⟩ := List.filter_eq_cons_iff.mp h
  exact ⟨before, after, hl, hx, hbefore⟩

theorem FirstWith.congr {p q : α → Prop} (h : ∀ y ∈ l, p y ↔ q y) (hx : FirstWith p l x) : FirstWith q l x := by
  obtain ⟨before, after, hl, hp, hbefore⟩ := hx
  have hmem : ∀ y ∈ before, y ∈ l := fun y hy => hl ▸ List.mem_append_left _ hy
  have hxl : x ∈ l := hl ▸ List.mem_append_right _ List.mem_cons_self
  refine ⟨before, after, hl, (h x hxl).mp hp, ?_⟩
  intro y hy hq
  exact hbefore y hy ((h y (hmem y hy)).mpr hq)

end Cyclic

end AgyProxy.Lib

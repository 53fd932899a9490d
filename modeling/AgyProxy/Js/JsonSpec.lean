import AgyProxy.Js.Json
import AgyProxy.Js.NumberSpec
import Mathlib.Data.List.Dedup

/-!
# AgyProxy.Js.JsonSpec — reading an object, and writing a value as text and reading it back

* `Obj.get?_cons`, `Obj.get?_eq_none`, `Obj.get?_eq_of_mem`: lookups by the definitions of an object.
* `Json.reparsed_eq_iff`: a value survives `JSON.stringify` and `JSON.parse` exactly when its numbers are finite.
* `Json.nodup_ownKeys`: the own keys of an object do not repeat.
* `Json.le_stringify`: a written value has no control unit.
-/

namespace AgyProxy.Js

namespace Obj

variable {o : Obj} {k : JsString} {v : Json}

theorem get?_cons (field : JsString × Json) (o : Obj) (k : JsString) :
    get? (field :: o) k = (get? o k).or (get? [field] k) := get?_append [field] o k

theorem get?_eq_none (hk : k ∉ o.map Prod.fst) : get? o k = none := by
  induction o with
  | nil => rfl
  | cons field o ih =>
    obtain ⟨hne, hrest⟩ := not_or.mp fun h => hk (List.mem_cons.mpr h)
    rw [get?_cons, ih hrest, Option.none_or, get?_singleton, if_neg hne]

/-- A definition of an object without a repeated key is read back. -/
theorem get?_eq_of_mem (hkeys : (o.map Prod.fst).Nodup) (hmem : (k, v) ∈ o) : get? o k = some v := by
  induction o with
  | nil => exact absurd hmem List.not_mem_nil
  | cons field o ih =>
    obtain ⟨hfield, hkeys⟩ := List.nodup_cons.mp hkeys
    rw [get?_cons]
    rcases List.mem_cons.mp hmem with rfl | hrest
    · rw [get?_eq_none hfield, Option.none_or, get?_singleton, if_pos rfl]
    · rw [ih hkeys hrest, Option.some_or]

end Obj

namespace Json

mutual

theorem reparsed_eq_iff : ∀ v : Json, reparsed v = v ↔ v.allFinite = true
  | null => by simp [reparsed, allFinite]
  | bool _ => by simp [reparsed, allFinite]
  | num (.fin _) => by simp [reparsed, allFinite]
  | num (.inf _) => by simp [reparsed, allFinite]
  | num .nan => by simp [reparsed, allFinite]
  | str _ => by simp [reparsed, allFinite]
  | arr es => by
    rw [reparsed, allFinite, arr.injEq]
    exact reparsed_elems_eq_iff es
  | obj o => by
    rw [reparsed, allFinite, obj.injEq]
    exact reparsed_fields_eq_iff o

theorem reparsed_elems_eq_iff : ∀ es : List Json, reparsed.elems es = es ↔ allFinite.elems es = true
  | [] => by simp [reparsed.elems, allFinite.elems]
  | e :: es => by
    rw [reparsed.elems, allFinite.elems, List.cons.injEq, Bool.and_eq_true, reparsed_eq_iff e,
      reparsed_elems_eq_iff es]

theorem reparsed_fields_eq_iff : ∀ o : List (JsString × Json), reparsed.fields o = o ↔ allFinite.fields o = true
  | [] => by simp [reparsed.fields, allFinite.fields]
  | (k, v) :: o => by
    rw [reparsed.fields, allFinite.fields, List.cons.injEq, Prod.mk.injEq, Bool.and_eq_true, and_iff_right rfl,
      reparsed_eq_iff v, reparsed_fields_eq_iff o]

end

theorem get?_reparsed_fields (o : Obj) (k : JsString) :
    Obj.get? (reparsed.fields o) k = (Obj.get? o k).map reparsed := by
  induction o with
  | nil => rfl
  | cons field o ih =>
    rw [reparsed.fields, Obj.get?_cons, Obj.get?_cons field, ih, Obj.get?_singleton, Obj.get?_singleton,
      Option.map_or]
    split <;> rfl

theorem nodup_ownKeys (o : Obj) : (ownKeys o).Nodup := by
  have hkeys : (o.map Prod.fst).reverse.dedup.reverse.Nodup := List.nodup_reverse.mpr (List.nodup_dedup _)
  unfold ownKeys
  refine List.nodup_append.mpr ⟨?_, hkeys.filter _, ?_⟩
  · exact (List.mergeSort_perm _ _).nodup_iff.mpr (hkeys.filter _)
  · intro a ha b hb hab
    have hindex := (List.mem_filter.mp ((List.mergeSort_perm _ _).mem_iff.mp ha)).2
    have hother := (List.mem_filter.mp hb).2
    rw [hab, Option.isNone_iff_eq_none.mp hother] at hindex
    exact absurd hindex Bool.false_ne_true

/-! ### The units of a written value -/

theorem le_of_numberUnit {u : UInt16} (h : NumberUnit u) : 0x20 ≤ u := by
  rcases h with h | h
  · obtain ⟨hle, -⟩ := isDigit_toNat h
    rw [UInt16.le_iff_toNat_le]
    exact le_trans (by decide) hle
  · exact forall_units (p := fun u => 0x20 ≤ u) (by decide) u h

theorem le_append {s t : JsString} (hs : ∀ u ∈ s, 0x20 ≤ u) (ht : ∀ u ∈ t, 0x20 ≤ u) : ∀ u ∈ s ++ t, 0x20 ≤ u :=
  List.forall_mem_append.mpr ⟨hs, ht⟩

theorem le_hexUnit (n : UInt16) (h : n < 0x10) : 0x20 ≤ hexUnit n := by
  unfold hexUnit
  split
  · rename_i hlt
    rw [UInt16.le_iff_toNat_le, UInt16.toNat_add]
    rw [UInt16.lt_iff_toNat_lt] at hlt h
    simp at *
    omega
  · rw [UInt16.le_iff_toNat_le, UInt16.toNat_add]
    rw [UInt16.lt_iff_toNat_lt] at h
    simp at *
    omega

theorem le_unicodeEscape (c : UInt16) : ∀ u ∈ unicodeEscape c, 0x20 ≤ u := by
  have hc : c.toNat < 0x10000 := c.toNat_lt
  refine le_append (forall_units (by decide)) ?_
  intro u hu
  simp only [List.mem_cons, List.not_mem_nil, or_false] at hu
  rcases hu with rfl | rfl | rfl | rfl
  · refine le_hexUnit _ (UInt16.lt_iff_toNat_lt.mpr ?_)
    simp
    omega
  · refine le_hexUnit _ (UInt16.lt_iff_toNat_lt.mpr ?_)
    simp
    omega
  · refine le_hexUnit _ (UInt16.lt_iff_toNat_lt.mpr ?_)
    simp
    omega
  · refine le_hexUnit _ (UInt16.lt_iff_toNat_lt.mpr ?_)
    simp
    omega

theorem le_of_surrogate {c : UInt16} (h : isHighSurrogate c = true ∨ isLowSurrogate c = true) : 0x20 ≤ c := by
  have hbound : ∀ d : UInt16, 0xD800 ≤ d → 0x20 ≤ d := fun d hd => UInt16.le_trans (by decide) hd
  unfold isHighSurrogate isLowSurrogate at h
  simp only [Bool.and_eq_true, decide_eq_true_eq] at h
  rcases h with h | h
  · exact hbound c h.1
  · exact hbound c (UInt16.le_trans (by decide) h.1)

/-- Every control unit is escaped. -/
theorem le_escapeUnits (s : JsString) : ∀ u ∈ escapeUnits s, 0x20 ≤ u := by
  fun_induction escapeUnits s with
  | case1 => exact List.forall_mem_nil _
  | case2 c hhigh d t hlow ih =>
    intro u hu
    rcases List.mem_cons.mp hu with rfl | hu
    · exact le_of_surrogate (Or.inl hhigh)
    · rcases List.mem_cons.mp hu with rfl | hu
      · exact le_of_surrogate (Or.inr hlow)
      · exact ih u hu
  | case3 c hhigh d t hlow ih => exact le_append (le_unicodeEscape c) ih
  | case4 c hhigh => exact le_unicodeEscape c
  | case5 c s hhigh ih =>
    refine le_append ?_ ih
    have hsimple : ∀ t : JsString, (t.all fun u => decide (0x20 ≤ u)) = true → ∀ u ∈ t, 0x20 ≤ u :=
      fun t ht => forall_units ht
    split
    · exact hsimple _ (by decide)
    split
    · exact hsimple _ (by decide)
    split
    · exact hsimple _ (by decide)
    split
    · exact hsimple _ (by decide)
    split
    · exact hsimple _ (by decide)
    split
    · exact hsimple _ (by decide)
    split
    · exact hsimple _ (by decide)
    split
    · exact le_unicodeEscape c
    · rename_i hplain
      rw [Bool.or_eq_true, not_or, decide_eq_true_eq] at hplain
      intro u hu
      rw [List.mem_singleton.mp hu]
      exact UInt16.not_lt.mp hplain.1

theorem le_quote (s : JsString) : ∀ u ∈ quote s, 0x20 ≤ u :=
  le_append (le_append (forall_units (by decide)) (le_escapeUnits s)) (forall_units (by decide))

theorem le_joinComma : ∀ ss : List JsString, (∀ s ∈ ss, ∀ u ∈ s, 0x20 ≤ u) → ∀ u ∈ joinComma ss, 0x20 ≤ u
  | [], _ => List.forall_mem_nil _
  | [s], h => h s List.mem_cons_self
  | s :: t :: ss, h => by
    refine le_append (le_append (h s List.mem_cons_self) (forall_units (by decide))) ?_
    exact le_joinComma (t :: ss) fun r hr => h r (List.mem_cons_of_mem s hr)

mutual

/-- **`JSON.stringify` writes no control unit**, and so no end of a line. -/
theorem le_stringify : ∀ v : Json, ∀ u ∈ stringify v, 0x20 ≤ u
  | null => forall_units (by decide)
  | bool true => forall_units (by decide)
  | bool false => forall_units (by decide)
  | num (.fin q) => fun u hu => le_of_numberUnit (numberToString_units (.fin q) u hu)
  | num (.inf true) => forall_units (by decide)
  | num (.inf false) => forall_units (by decide)
  | num .nan => forall_units (by decide)
  | str s => le_quote s
  | arr es => le_append (le_append (forall_units (by decide)) (le_joinComma _ (le_stringify_elems es)))
      (forall_units (by decide))
  | obj o => by
    refine le_append (le_append (forall_units (by decide)) (le_joinComma _ ?_)) (forall_units (by decide))
    intro s hs
    obtain ⟨k, -, rfl⟩ := List.mem_map.mp hs
    refine le_append (le_append (le_quote k) (forall_units (by decide))) ?_
    cases h : (stringify.fields o).reverse.lookup k with
    | none => exact List.forall_mem_nil _
    | some t =>
      obtain ⟨l₁, l₂, hl, -⟩ := List.lookup_eq_some_iff.mp h
      have hmem : (k, t) ∈ (stringify.fields o).reverse := hl ▸ List.mem_append_right l₁ List.mem_cons_self
      exact le_stringify_fields o (k, t) (List.mem_reverse.mp hmem)

theorem le_stringify_elems : ∀ es : List Json, ∀ s ∈ stringify.elems es, ∀ u ∈ s, 0x20 ≤ u
  | [] => List.forall_mem_nil _
  | e :: es => List.forall_mem_cons.mpr ⟨le_stringify e, le_stringify_elems es⟩

theorem le_stringify_fields : ∀ o : List (JsString × Json), ∀ p ∈ stringify.fields o, ∀ u ∈ p.2, 0x20 ≤ u
  | [] => List.forall_mem_nil _
  | (_, v) :: o => List.forall_mem_cons.mpr ⟨le_stringify v, le_stringify_fields o⟩

end

end Json

end AgyProxy.Js

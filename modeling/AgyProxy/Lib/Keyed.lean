import Mathlib.Data.List.Basic
import Mathlib.Data.List.Nodup

/-!
# AgyProxy.Lib.Keyed — rows with a key column

* `find?_key_iff`: the row a key finds, in a list without a repeated key.
* `updateAt`: the rows of one key rewritten, the others kept; what columns it keeps free of repetition.
-/

namespace AgyProxy.Lib

section Keyed

variable {α κ ν : Type} [DecidableEq κ] {key : α → κ} {rows : List α} {k : κ} {r : α}

/-- In a list without a repeated key, the row found is the row that is there. -/
theorem find?_key_iff (hkeys : (rows.map key).Nodup) :
    rows.find? (fun r => decide (key r = k)) = some r ↔ r ∈ rows ∧ key r = k := by
  constructor
  · intro h
    have hkey := List.find?_some h
    exact ⟨List.mem_of_find?_eq_some h, of_decide_eq_true hkey⟩
  · rintro ⟨hmem, hkey⟩
    have hsome : (rows.find? fun r => decide (key r = k)).isSome = true :=
      List.find?_isSome.mpr ⟨r, hmem, decide_eq_true hkey⟩
    obtain ⟨r', hr'⟩ := Option.isSome_iff_exists.mp hsome
    have hfound := List.find?_some hr'
    have hkey' : key r' = k := of_decide_eq_true hfound
    have hsame : r' = r :=
      List.inj_on_of_nodup_map hkeys (List.mem_of_find?_eq_some hr') hmem (hkey'.trans hkey.symm)
    rw [hr', hsame]

theorem find?_key_none_iff : rows.find? (fun r => decide (key r = k)) = none ↔ ∀ r ∈ rows, key r ≠ k := by
  rw [List.find?_eq_none]
  exact forall₂_congr fun r _ => not_congr decide_eq_true_iff

/-- The row of a key is rewritten. -/
def updateAt (key : α → κ) (k : κ) (f : α → α) (rows : List α) : List α :=
  rows.map fun r => if key r = k then f r else r

variable {f : α → α} {col : α → ν}

/-- A column the rewriting keeps. -/
theorem map_updateAt (hcol : ∀ r, col (f r) = col r) : (updateAt key k f rows).map col = rows.map col := by
  unfold updateAt
  rw [List.map_map]
  refine List.map_congr_left fun r _ => ?_
  show col (if key r = k then f r else r) = col r
  split
  · exact hcol r
  · rfl

theorem mem_updateAt_iff : r ∈ updateAt key k f rows ↔
    (r ∈ rows ∧ key r ≠ k) ∨ ∃ r' ∈ rows, key r' = k ∧ f r' = r := by
  unfold updateAt
  rw [List.mem_map]
  constructor
  · rintro ⟨r', hr', hif⟩
    by_cases hkey : key r' = k
    · rw [if_pos hkey] at hif
      exact Or.inr ⟨r', hr', hkey, hif⟩
    · rw [if_neg hkey] at hif
      exact Or.inl ⟨hif ▸ hr', hif ▸ hkey⟩
  · rintro (⟨hmem, hkey⟩ | ⟨r', hr', hkey, hf⟩)
    · exact ⟨r, hmem, if_neg hkey⟩
    · exact ⟨r', hr', (if_pos hkey).trans hf⟩

/-- The row a key finds after the rewriting. -/
theorem find?_updateAt {k' : κ} (hkey : ∀ r, key (f r) = key r) :
    (updateAt key k f rows).find? (fun r => decide (key r = k')) =
      (rows.find? fun r => decide (key r = k')).map fun r => if key r = k then f r else r := by
  unfold updateAt
  rw [List.find?_map]
  congr 2
  funext r
  show decide (key (if key r = k then f r else r) = k') = decide (key r = k')
  split
  · rw [hkey]
  · rfl

/-- A column set to a new value. -/
theorem nodup_map_updateAt {v : ν} (hkeys : (rows.map key).Nodup) (hcols : (rows.map col).Nodup)
    (hnew : ∀ r ∈ rows, col r ≠ v) (hset : ∀ r, col (f r) = v) : ((updateAt key k f rows).map col).Nodup := by
  induction rows with
  | nil => exact List.nodup_nil
  | cons r rows ih =>
    obtain ⟨hkey, hkeys⟩ := List.nodup_cons.mp hkeys
    obtain ⟨hcol, hcols⟩ := List.nodup_cons.mp hcols
    have htail := ih hkeys hcols fun x hx => hnew x (List.mem_cons_of_mem r hx)
    by_cases hr : key r = k
    · -- the one row of the key is the first: the others are kept
      have hrest : updateAt key k f rows = rows := by
        unfold updateAt
        refine (List.map_congr_left fun x hx => if_neg fun hxk => hkey ?_).trans (List.map_id _)
        exact hr.trans hxk.symm ▸ List.mem_map_of_mem hx
      show ((if key r = k then f r else r) :: updateAt key k f rows |>.map col).Nodup
      rw [hrest, if_pos hr, List.map_cons, hset, List.nodup_cons]
      refine ⟨fun hmem => ?_, hcols⟩
      obtain ⟨x, hx, hxv⟩ := List.mem_map.mp hmem
      exact hnew x (List.mem_cons_of_mem r hx) hxv
    · show ((if key r = k then f r else r) :: updateAt key k f rows |>.map col).Nodup
      rw [if_neg hr, List.map_cons, List.nodup_cons]
      refine ⟨fun hmem => ?_, htail⟩
      obtain ⟨x, hx, hxr⟩ := List.mem_map.mp hmem
      rcases mem_updateAt_iff.mp hx with ⟨hmem', -⟩ | ⟨y, -, -, rfl⟩
      · exact hcol (hxr ▸ List.mem_map_of_mem hmem')
      · exact hnew r List.mem_cons_self (hxr.symm.trans (hset y))

end Keyed

end AgyProxy.Lib

import Mathlib.Data.List.Infix
import Mathlib.Data.List.Pairwise
import Mathlib.Data.List.Range

/-!
# AgyProxy.Lib.Backlog — a numbered log of which only the last entries are kept

* `Numbered num log`: the entries of the log carry the numbers `1, 2, …` in order.
* `Numbered.filter_suffix`: what the kept end of the log holds after a number is all there is after it, when
  the first kept entry is not later than that number; `Numbered.filter_drop` places it in the log.
* `exists_latest`: the last value the entries of a log carry belongs to the latest entry with a value.
-/

namespace AgyProxy.Lib

section Backlog

variable {α : Type} (num : α → ℕ)

/-- The entries are numbered from one on. -/
def Numbered (log : List α) : Prop := log.map num = List.range' 1 log.length

variable {num} {log kept : List α} {e e' : α} {n : ℕ}

theorem numbered_nil : Numbered num [] := rfl

theorem Numbered.append (h : Numbered num log) (he : num e = log.length + 1) : Numbered num (log ++ [e]) := by
  unfold Numbered at *
  rw [List.map_append, h, List.length_append, List.length_singleton, List.range'_concat, List.map_singleton, he]
  congr 2
  omega

theorem Numbered.le (h : Numbered num log) (he : e ∈ log) : num e ≤ log.length := by
  have hmem : num e ∈ log.map num := List.mem_map_of_mem he
  rw [h, List.mem_range'_1] at hmem
  omega

theorem Numbered.pairwise (h : Numbered num log) : log.Pairwise fun e e' => num e < num e' := by
  have hlt : (log.map num).Pairwise (· < ·) := h ▸ List.pairwise_lt_range'
  exact List.pairwise_map.mp hlt

/-- **Replay from a kept number**: nothing after it has been dropped. -/
theorem Numbered.filter_suffix (h : Numbered num log) (hkept : kept <:+ log)
    (hfirst : ∀ e ∈ kept.head?, num e ≤ n) (hne : kept ≠ []) :
    kept.filter (fun e => decide (n < num e)) = log.filter fun e => decide (n < num e) := by
  obtain ⟨dropped, rfl⟩ := hkept
  obtain ⟨first, rest, rfl⟩ := List.exists_cons_of_ne_nil hne
  have hle : num first ≤ n := hfirst first rfl
  have hbefore : ∀ e ∈ dropped, num e < num first := by
    intro e he
    exact (List.pairwise_append.mp h.pairwise).2.2 e he first List.mem_cons_self
  have hnone : dropped.filter (fun e => decide (n < num e)) = [] := by
    apply List.filter_eq_nil_iff.mpr
    intro e he hlt
    have := hbefore e he
    have := of_decide_eq_true hlt
    omega
  rw [List.filter_append, hnone, List.nil_append]

/-- Nothing comes after the last number. -/
theorem Numbered.filter_length (h : Numbered num log) (hkept : kept <:+ log) :
    kept.filter (fun e => decide (log.length < num e)) = [] := by
  apply List.filter_eq_nil_iff.mpr
  intro e he hlt
  have := h.le (hkept.mem he)
  have := of_decide_eq_true hlt
  omega

/-- An entry's number tells its place. -/
theorem Numbered.num_eq (h : Numbered num log) {i : ℕ} (hi : log[i]? = some e) : num e = i + 1 := by
  have hmap : (log.map num)[i]? = some (num e) := by
    rw [List.getElem?_map, hi]
    rfl
  rw [h] at hmap
  obtain ⟨hlt, heq⟩ := List.getElem?_eq_some_iff.mp hmap
  rw [List.getElem_range'] at heq
  omega

/-- What the kept end holds after a number, counted from the front of the log. -/
theorem Numbered.filter_drop (h : Numbered num log) (k n : ℕ) :
    (log.drop k).filter (fun e => decide (n < num e)) = log.drop (max k n) := by
  have hbefore : ((log.drop k).take (n - k)).filter (fun e => decide (n < num e)) = [] := by
    refine List.filter_eq_nil_iff.mpr fun e he hlt => ?_
    obtain ⟨i, hi⟩ := List.mem_iff_getElem?.mp he
    rw [List.getElem?_take, List.getElem?_drop] at hi
    obtain ⟨hin, hi⟩ := Option.ite_none_right_eq_some.mp hi
    have hnum := h.num_eq hi
    have hlt' := of_decide_eq_true hlt
    omega
  have hafter : (log.drop (max k n)).filter (fun e => decide (n < num e)) = log.drop (max k n) := by
    refine List.filter_eq_self.mpr fun e he => ?_
    obtain ⟨i, hi⟩ := List.mem_iff_getElem?.mp he
    rw [List.getElem?_drop] at hi
    have hnum := h.num_eq hi
    exact decide_eq_true (by omega)
  have hmax : k + (n - k) = max k n := by omega
  rw [← List.take_append_drop (n - k) (log.drop k), List.filter_append, hbefore, List.nil_append, List.drop_drop,
    hmax, hafter]

/-- The last value among the entries that have one belongs to the latest of these. -/
theorem exists_latest {β : Type} {f : α → Option β} {b : β} :
    ∀ {l : List α}, l.Pairwise (fun e e' => num e < num e') → (l.filterMap f).getLast? = some b →
      ∃ e ∈ l, f e = some b ∧ ∀ e' ∈ l, (f e').isSome → num e' ≤ num e
  | [], _, h => nomatch h
  | e :: l, hl, h => by
    obtain ⟨hfirst, hrest⟩ := List.pairwise_cons.mp hl
    cases hlast : (l.filterMap f).getLast? with
    | some b' =>
      obtain ⟨e₀, he₀, hb, hmax⟩ := exists_latest hrest hlast
      have hb' : b' = b := by
        cases hfe : f e with
        | none =>
          rw [List.filterMap_cons_none hfe, hlast] at h
          exact Option.some.inj h
        | some q =>
          rw [List.filterMap_cons_some hfe, List.getLast?_cons, hlast] at h
          exact Option.some.inj h
      refine ⟨e₀, List.mem_cons_of_mem e he₀, hb' ▸ hb, fun e' he' hsome => ?_⟩
      rcases List.mem_cons.mp he' with rfl | he'
      · exact (hfirst e₀ he₀).le
      · exact hmax e' he' hsome
    | none =>
      have hnone := List.filterMap_eq_nil_iff.mp (List.getLast?_eq_none_iff.mp hlast)
      cases hfe : f e with
      | none =>
        rw [List.filterMap_cons_none hfe, hlast] at h
        exact nomatch h
      | some q =>
        rw [List.filterMap_cons_some hfe, List.getLast?_cons, hlast] at h
        refine ⟨e, List.mem_cons_self, hfe.trans (congrArg some (Option.some.inj h)), fun e' he' hsome => ?_⟩
        rcases List.mem_cons.mp he' with rfl | he'
        · exact le_refl _
        · rw [hnone e' he'] at hsome
          exact absurd hsome Bool.false_ne_true

end Backlog

end AgyProxy.Lib

import Mathlib.Data.List.Basic
import Mathlib.Data.List.Infix

/-!
# AgyProxy.Lib.Search — first occurrences in a text, of one pattern or of several

* `indexOf`: the first place a pattern occurs at.
* `firstMatch`: among several patterns the one that occurs first, of two at one place the one listed
  first; a left-to-right scan over the patterns that keeps the best so far.
* `IsFirst`: what that scan finds, stated without the scan (`firstMatch_eq_some_iff`).
* `Overtakes`: how a longer text can have another first match (`isFirst_iff_not_overtakes`).
-/

namespace AgyProxy.Lib

section Occurs

variable {α : Type}

/-- The pattern occurs in the text at that place. -/
def Occurs (p text : List α) (i : ℕ) : Prop := p <+: text.drop i

variable {p q text more : List α} {i : ℕ}

theorem occurs_cons {c : α} : Occurs p (c :: text) (i + 1) ↔ Occurs p text i := Iff.rfl

theorem occurs_append_right : Occurs p (q ++ text) (q.length + i) ↔ Occurs p text i := by
  unfold Occurs
  rw [List.drop_append, List.drop_eq_nil_of_le (Nat.le_add_right _ _), Nat.add_sub_cancel_left,
    List.nil_append]

theorem Occurs.add_length_le (h : Occurs p text i) (hp : p ≠ []) : i + p.length ≤ text.length := by
  have hle := List.IsPrefix.length_le h
  have hpos := List.length_pos_of_ne_nil hp
  rw [List.length_drop] at hle
  omega

/-- An occurrence stays one in a longer text. -/
theorem Occurs.append (h : Occurs p text i) (hp : p ≠ []) : Occurs p (text ++ more) i := by
  have hle := h.add_length_le hp
  unfold Occurs at *
  rw [List.drop_append_of_le_length (by omega)]
  exact h.trans (List.prefix_append _ _)

/-- An occurrence that fits into the shorter text is one there. -/
theorem Occurs.of_append (h : Occurs p (text ++ more) i) (hle : i + p.length ≤ text.length) :
    Occurs p text i := by
  unfold Occurs at *
  rw [List.drop_append_of_le_length (by omega)] at h
  exact List.prefix_of_prefix_length_le h (List.prefix_append _ _) (by rw [List.length_drop]; omega)

/-- An occurrence that does not fit begins with the end of the shorter text. -/
theorem Occurs.straddles (h : Occurs p (text ++ more) i) (hi : i ≤ text.length)
    (hlt : text.length < i + p.length) : p.take (text.length - i) = text.drop i := by
  unfold Occurs at h
  rw [List.drop_append_of_le_length hi] at h
  obtain ⟨rest, hrest⟩ := h
  have hlen : (text.drop i).length = text.length - i := List.length_drop
  have hshort : text.length - i ≤ p.length := by omega
  calc p.take (text.length - i) = (p ++ rest).take (text.length - i) :=
        (List.take_append_of_le_length hshort).symm
    _ = (text.drop i ++ more).take (text.length - i) := by rw [hrest]
    _ = text.drop i := by rw [List.take_append_of_le_length hlen.ge, List.take_of_length_le hlen.le]

end Occurs

section Search

variable {α : Type} [DecidableEq α]

instance (p text : List α) (i : ℕ) : Decidable (Occurs p text i) := inferInstanceAs (Decidable (_ <+: _))

/-- The first place the pattern occurs at. -/
def indexOf (p : List α) : List α → Option ℕ
  | [] => if p = [] then some 0 else none
  | c :: text => if p <+: c :: text then some 0 else (indexOf p text).map (· + 1)

theorem indexOf_eq_none {p : List α} : ∀ {text : List α}, indexOf p text = none → ∀ i, ¬ Occurs p text i
  | [], h, i, ho => by
    unfold indexOf at h
    split at h
    · exact absurd h (by simp)
    · rename_i hp
      unfold Occurs at ho
      rw [List.drop_nil] at ho
      exact hp (List.prefix_nil.mp ho)
  | c :: text, h, i, ho => by
    unfold indexOf at h
    split at h
    · exact absurd h (by simp)
    · rename_i hp
      cases i with
      | zero => exact hp ho
      | succ i => exact indexOf_eq_none (Option.map_eq_none_iff.mp h) i (occurs_cons.mp ho)

theorem indexOf_eq_some {p : List α} :
    ∀ {text : List α} {i : ℕ}, indexOf p text = some i → Occurs p text i ∧ ∀ j < i, ¬ Occurs p text j
  | [], i, h => by
    unfold indexOf at h
    obtain ⟨rfl, hi⟩ := Option.ite_none_right_eq_some.mp h
    obtain rfl : 0 = i := Option.some.inj hi
    exact ⟨List.prefix_rfl, fun j hj => absurd hj (Nat.not_lt_zero j)⟩
  | c :: text, i, h => by
    unfold indexOf at h
    split at h
    · rename_i hp
      obtain rfl : 0 = i := Option.some.inj h
      exact ⟨hp, fun j hj => absurd hj (Nat.not_lt_zero j)⟩
    · rename_i hp
      obtain ⟨k, hk, rfl⟩ := Option.map_eq_some_iff.mp h
      obtain ⟨hocc, hmin⟩ := indexOf_eq_some hk
      refine ⟨hocc, fun j hj ho => ?_⟩
      cases j with
      | zero => exact hp ho
      | succ j => exact hmin j (by omega) (occurs_cons.mp ho)

/-! ### The first match of several patterns -/

/-- One pattern more is looked for: it becomes the best when it occurs strictly before the best so far. -/
def noteMatch (text : List α) (best : Option (ℕ × List α)) (p : List α) : Option (ℕ × List α) :=
  match indexOf p text with
  | some i => if best.all fun b => decide (i < b.1) then some (i, p) else best
  | none => best

def firstMatch (text : List α) (ps : List (List α)) : Option (ℕ × List α) := ps.foldl (noteMatch text) none

/-- `p` at `i` is the first match: no pattern occurs before, and `p` is the first listed that occurs there. -/
def IsFirst (ps : List (List α)) (text : List α) (i : ℕ) (p : List α) : Prop :=
  (∀ q ∈ ps, ∀ j < i, ¬ Occurs q text j) ∧ ps.find? (fun q => decide (Occurs q text i)) = some p

section First

variable {ps : List (List α)} {text p : List α} {i : ℕ}

theorem IsFirst.mem (h : IsFirst ps text i p) : p ∈ ps := List.mem_of_find?_eq_some h.2

theorem IsFirst.occurs (h : IsFirst ps text i p) : Occurs p text i := by
  simpa using List.find?_some h.2

/-- There is one first match at most. -/
theorem IsFirst.unique {j : ℕ} {q : List α} (h : IsFirst ps text i p) (h' : IsFirst ps text j q) :
    i = j ∧ p = q := by
  have hij : i = j := by
    rcases Nat.lt_trichotomy i j with hlt | heq | hgt
    · exact absurd h.occurs (h'.1 p h.mem i hlt)
    · exact heq
    · exact absurd h'.occurs (h.1 q h'.mem j hgt)
  subst hij
  exact ⟨rfl, Option.some.inj (h.2.symm.trans h'.2)⟩

/-- A pattern that occurs before all of the list is found behind it. -/
theorem IsFirst.of_concat {q : List α} {k : ℕ} (hocc : Occurs q text k) (hmin : ∀ j < k, ¬ Occurs q text j)
    (hps : ∀ r ∈ ps, ∀ j ≤ k, ¬ Occurs r text j) : IsFirst (ps ++ [q]) text k q := by
  refine ⟨fun r hr j hj => ?_, ?_⟩
  · rcases List.mem_append.mp hr with hr | hr
    · exact hps r hr j (Nat.le_of_lt hj)
    · exact List.mem_singleton.mp hr ▸ hmin j hj
  · have hnone : ps.find? (fun r => decide (Occurs r text k)) = none :=
      List.find?_eq_none.mpr fun r hr h => hps r hr k (Nat.le_refl k) (of_decide_eq_true h)
    rw [List.find?_append, hnone, Option.none_or]
    exact List.find?_cons_of_pos (decide_eq_true hocc)

/-- A first match stays one when the pattern added does not occur before it. -/
theorem IsFirst.concat {q : List α} (h : IsFirst ps text i p) (hq : ∀ j < i, ¬ Occurs q text j) :
    IsFirst (ps ++ [q]) text i p := by
  refine ⟨fun r hr j hj => ?_, by rw [List.find?_append, h.2]; rfl⟩
  rcases List.mem_append.mp hr with hr | hr
  · exact h.1 r hr j hj
  · exact List.mem_singleton.mp hr ▸ hq j hj

/-- The scan finds the first match, and nothing only when there is none. -/
theorem firstMatch_spec (text : List α) (ps : List (List α)) :
    (∀ i p, firstMatch text ps = some (i, p) → IsFirst ps text i p) ∧
      (firstMatch text ps = none → ∀ q ∈ ps, ∀ i, ¬ Occurs q text i) := by
  induction ps using List.reverseRecOn with
  | nil => exact ⟨fun i p h => absurd h (by simp [firstMatch]), fun _ q hq => absurd hq List.not_mem_nil⟩
  | append_singleton ps q ih =>
    obtain ⟨hsome, hnone⟩ := ih
    have hscan : firstMatch text (ps ++ [q]) = noteMatch text (firstMatch text ps) q := by
      unfold firstMatch
      rw [List.foldl_append]
      rfl
    rw [hscan]
    unfold noteMatch
    cases hq : indexOf q text with
    | none =>
      have hno := indexOf_eq_none hq
      refine ⟨fun i p h => (hsome i p h).concat fun j _ => hno j, fun h r hr => ?_⟩
      rcases List.mem_append.mp hr with hr | hr
      · exact hnone h r hr
      · exact List.mem_singleton.mp hr ▸ hno
    | some k =>
      obtain ⟨hocc, hmin⟩ := indexOf_eq_some hq
      cases hbest : firstMatch text ps with
      | none =>
        refine ⟨fun i p h => ?_, fun h => absurd h (by simp)⟩
        obtain ⟨rfl, rfl⟩ := Prod.mk.inj (Option.some.inj h)
        exact IsFirst.of_concat hocc hmin fun r hr j _ => hnone hbest r hr j
      | some b =>
        obtain ⟨i, p⟩ := b
        have hfirst := hsome i p hbest
        by_cases hk : k < i
        · refine ⟨fun i' p' h => ?_, fun h => absurd h (by simp [hk])⟩
          obtain ⟨rfl, rfl⟩ : k = i' ∧ q = p' := by simpa [hk] using h
          exact IsFirst.of_concat hocc hmin fun r hr j hj => hfirst.1 r hr j (by omega)
        · refine ⟨fun i' p' h => ?_, fun h => absurd h (by simp [hk])⟩
          obtain ⟨rfl, rfl⟩ : i = i' ∧ p = p' := by simpa [hk] using h
          exact hfirst.concat fun j hj => hmin j (by omega)

theorem firstMatch_eq_some_iff : firstMatch text ps = some (i, p) ↔ IsFirst ps text i p := by
  refine ⟨(firstMatch_spec text ps).1 i p, fun h => ?_⟩
  cases hbest : firstMatch text ps with
  | none => exact absurd h.occurs ((firstMatch_spec text ps).2 hbest p h.mem i)
  | some b =>
    obtain ⟨rfl, rfl⟩ := ((firstMatch_spec text ps).1 b.1 b.2 hbest).unique h
    rfl

theorem firstMatch_eq_none_iff : firstMatch text ps = none ↔ ∀ q ∈ ps, ∀ i, ¬ Occurs q text i := by
  refine ⟨(firstMatch_spec text ps).2, fun h => ?_⟩
  cases hbest : firstMatch text ps with
  | none => rfl
  | some b =>
    have hfirst := (firstMatch_spec text ps).1 b.1 b.2 hbest
    exact absurd hfirst.occurs (h b.2 hfirst.mem b.1)

/-- Behind a part in which nothing begins, the first match is the one of the rest. -/
theorem isFirst_append {before : List α} (hbefore : ∀ q ∈ ps, ∀ j < before.length, ¬ Occurs q (before ++ text) j) :
    IsFirst ps (before ++ text) (before.length + i) p ↔ IsFirst ps text i p := by
  unfold IsFirst
  simp only [occurs_append_right]
  refine and_congr_left fun _ => ⟨fun h q hq j hj => ?_, fun h q hq j hj => ?_⟩
  · exact fun ho => h q hq (before.length + j) (by omega) (occurs_append_right.mpr ho)
  · by_cases hlt : j < before.length
    · exact hbefore q hq j hlt
    · obtain ⟨k, rfl⟩ := Nat.exists_eq_add_of_le (Nat.not_lt.mp hlt)
      exact fun ho => h q hq k (by omega) (occurs_append_right.mp ho)

/-- Some pattern occurs before `i`, or at `i` and is listed before `p`. -/
def Overtakes (ps : List (List α)) (text : List α) (i : ℕ) (p : List α) : Prop :=
  (∃ q ∈ ps, ∃ j < i, Occurs q text j) ∨ ∃ q ∈ ps.takeWhile (· ≠ p), Occurs q text i

theorem find?_eq_some_iff_takeWhile {P : List α → Bool} {qs : List (List α)} (hmem : p ∈ qs) (hp : P p = true) :
    qs.find? P = some p ↔ ∀ q ∈ qs.takeWhile (· ≠ p), P q = false := by
  induction qs with
  | nil => exact absurd hmem List.not_mem_nil
  | cons q qs ih =>
    by_cases hqp : q = p
    · subst hqp
      simp [hp]
    · have hmem' : p ∈ qs := (List.mem_cons.mp hmem).resolve_left fun h => hqp h.symm
      cases hq : P q with
      | false => simp [hq, hqp, ih hmem']
      | true => simp [hq, hqp]

/-- An occurrence of a listed pattern is the first match unless it is overtaken. -/
theorem isFirst_iff_not_overtakes (hmem : p ∈ ps) (hocc : Occurs p text i) :
    IsFirst ps text i p ↔ ¬ Overtakes ps text i p := by
  unfold IsFirst Overtakes
  rw [find?_eq_some_iff_takeWhile hmem (decide_eq_true hocc), not_or]
  refine and_congr ?_ ?_
  · simp only [not_exists, not_and]
  · simp only [not_exists, not_and, decide_eq_false_iff_not]

end First

end Search

end AgyProxy.Lib

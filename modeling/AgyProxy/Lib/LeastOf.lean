import Mathlib.Order.Bounds.Basic

/-!
# AgyProxy.Lib.LeastOf — the least of what was seen so far

* `LeastOf S o`: `o` is the least element of `S`, none when `S` is empty.
* `LeastOf.foldl`: a scan that keeps the least, when each of its steps does.
-/

namespace AgyProxy.Lib

section LeastOf

variable {α β : Type} [LinearOrder α] {S T : Set α} {x y : α}

def LeastOf (S : Set α) : Option α → Prop
  | none => ∀ x, x ∉ S
  | some x => IsLeast S x

theorem leastOf_empty : LeastOf (∅ : Set α) none := fun _ hx => hx

theorem LeastOf.congr {o : Option α} (h : ∀ x, x ∈ S ↔ x ∈ T) (ho : LeastOf S o) : LeastOf T o := by
  rwa [← Set.ext h]

/-- A set that adds nothing. -/
theorem LeastOf.union_empty {o : Option α} (h : LeastOf S o) (hT : ∀ x, x ∉ T) : LeastOf (S ∪ T) o := by
  refine h.congr fun x => ?_
  constructor
  · exact Or.inl
  · rintro (hx | hx)
    · exact hx
    · exact absurd hx (hT x)

/-- The first element seen. -/
theorem LeastOf.union_first (hS : ∀ x, x ∉ S) (hT : IsLeast T y) : LeastOf (S ∪ T) (some y) := by
  refine ⟨Or.inr hT.1, ?_⟩
  rintro x (hx | hx)
  · exact absurd hx (hS x)
  · exact hT.2 hx

theorem LeastOf.union_lt (hS : IsLeast S x) (hT : IsLeast T y) (hlt : y < x) : LeastOf (S ∪ T) (some y) := by
  refine ⟨Or.inr hT.1, ?_⟩
  rintro z (hz | hz)
  · exact hlt.le.trans (hS.2 hz)
  · exact hT.2 hz

theorem LeastOf.union_le (hS : IsLeast S x) (hT : IsLeast T y) (hle : x ≤ y) : LeastOf (S ∪ T) (some x) := by
  refine ⟨Or.inl hS.1, ?_⟩
  rintro z (hz | hz)
  · exact hS.2 hz
  · exact hle.trans (hT.2 hz)

/-- **Scan rule**: what each step adds, the scan has seen. -/
theorem LeastOf.foldl {step : Option α → β → Option α} {seen : β → Set α} :
    ∀ {l : List β} {S : Set α} {o : Option α},
      (∀ b ∈ l, ∀ S o, LeastOf S o → LeastOf (S ∪ seen b) (step o b)) → LeastOf S o →
      LeastOf (S ∪ {x | ∃ b ∈ l, x ∈ seen b}) (l.foldl step o)
  | [], S, o, _, ho => ho.union_empty fun x hx => by
    obtain ⟨b, hb, -⟩ := hx
    exact List.not_mem_nil hb
  | b :: l, S, o, hstep, ho => by
    have hhead := hstep b List.mem_cons_self S o ho
    have htail := LeastOf.foldl (l := l) (fun b' hb' => hstep b' (List.mem_cons_of_mem b hb')) hhead
    refine htail.congr fun x => ?_
    constructor
    · rintro ((hx | hx) | ⟨b', hb', hx⟩)
      · exact Or.inl hx
      · exact Or.inr ⟨b, List.mem_cons_self, hx⟩
      · exact Or.inr ⟨b', List.mem_cons_of_mem b hb', hx⟩
    · rintro (hx | ⟨b', hb', hx⟩)
      · exact Or.inl (Or.inl hx)
      · rcases List.mem_cons.mp hb' with rfl | hb'
        · exact Or.inl (Or.inr hx)
        · exact Or.inr ⟨b', hb', hx⟩

end LeastOf

end AgyProxy.Lib

import Mathlib.Data.List.Basic

/-!
# AgyProxy.Lib.Machine — guarded step functions and their runs

A machine is a step function `step s a`: `some s'` when action `a` is enabled in `s`, else `none`.

* `exec`: the state after a list of actions, when every one is enabled in turn.
* `Every ok`: each action of the list meets `ok` in the state it is taken in.
* `exec_invariant`: what every such step preserves holds at the end of the run; the rule all run
  theorems use.
* `exec_dichotomy`: a run that ends well is careful throughout, and one careless step spoils it for good.
-/

namespace AgyProxy.Lib

section Machine

variable {S A : Type} (step : S → A → Option S)

/-- The state after the actions, taken in order. -/
def exec (s : S) : List A → Option S
  | [] => some s
  | a :: as => (step s a).bind fun s' => exec s' as

/-- Each action of the run meets `ok` in the state it is taken in. -/
def Every (ok : S → A → Prop) (s : S) : List A → Prop
  | [] => True
  | a :: as => ok s a ∧ ∀ s', step s a = some s' → Every ok s' as

variable {step}

theorem exec_cons {s s' : S} {a : A} {as : List A} (h : exec step s (a :: as) = some s') :
    ∃ t, step s a = some t ∧ exec step t as = some s' :=
  Option.bind_eq_some_iff.mp h

theorem exec_append {s : S} {as bs : List A} :
    exec step s (as ++ bs) = (exec step s as).bind fun t => exec step t bs := by
  induction as generalizing s with
  | nil => rfl
  | cons a as ih =>
    rw [List.cons_append, exec, exec, Option.bind_assoc]
    exact congrArg _ (funext fun t => ih)

/-- **Invariant rule**: what the steps meeting `ok` preserve, a run of such steps preserves. -/
theorem exec_invariant {ok : S → A → Prop} {I : S → Prop}
    (hstep : ∀ s a s', I s → ok s a → step s a = some s' → I s') :
    ∀ (as : List A) (s s' : S), I s → Every step ok s as → exec step s as = some s' → I s'
  | [], s, s', hI, _, h => by
    obtain rfl : s = s' := Option.some.inj h
    exact hI
  | a :: as, s, s', hI, hok, h => by
    obtain ⟨t, ht, h'⟩ := exec_cons h
    exact exec_invariant hstep as t s' (hstep s a t hI hok.1 ht) (hok.2 t ht) h'

/-- What every action of the list meets, each meets in its state. -/
theorem Every.of_forall {P : A → Prop} {as : List A} (h : ∀ a ∈ as, P a) {s : S} :
    Every step (fun _ a => P a) s as := by
  induction as generalizing s with
  | nil => exact trivial
  | cons a as ih => exact ⟨h a List.mem_cons_self, fun s' _ => ih fun b hb => h b (List.mem_cons_of_mem a hb)⟩

/-- The invariant rule when every enabled step preserves `I`. -/
theorem exec_invariant' {I : S → Prop} (hstep : ∀ s a s', I s → step s a = some s' → I s')
    (as : List A) (s s' : S) (hI : I s) (h : exec step s as = some s') : I s' := by
  have hall : Every step (fun _ _ => True) s as := Every.of_forall fun _ _ => trivial
  exact exec_invariant (fun s a s' hs _ => hstep s a s' hs) as s s' hI hall h

theorem every_cons_iff {ok : S → A → Prop} {s t : S} {a : A} {as : List A} (ht : step s a = some t) :
    Every step ok s (a :: as) ↔ ok s a ∧ Every step ok t as :=
  and_congr_right fun _ => ⟨fun h => h t ht, fun h _ hu => Option.some.inj (ht.symm.trans hu) ▸ h⟩

/-- Two conditions that agree on the enabled steps of an invariant agree on a run. -/
theorem every_congr {ok ok' : S → A → Prop} {I : S → Prop}
    (hstep : ∀ s a s', I s → step s a = some s' → I s')
    (hiff : ∀ s a s', I s → step s a = some s' → (ok s a ↔ ok' s a)) :
    ∀ (as : List A) (s s' : S), I s → exec step s as = some s' →
      (Every step ok s as ↔ Every step ok' s as)
  | [], _, _, _, _ => Iff.rfl
  | a :: as, s, s', hI, h => by
    obtain ⟨t, ht, h'⟩ := exec_cons h
    rw [every_cons_iff ht, every_cons_iff ht, hiff s a t hI ht,
      every_congr hstep hiff as t s' (hstep s a t hI ht) h']

/-- **Dichotomy rule**: from a live state a careful step leads to a live or a good one and a careless step
to a spoilt one, and good and spoilt states stay so.  Then a run ends spoilt exactly when it took a
careless step. -/
theorem exec_dichotomy {ok : S → A → Prop} {Live Good Spoilt : S → Prop}
    (hlive : ∀ s a s', Live s → step s a = some s' → ok s a ∧ (Live s' ∨ Good s') ∨ ¬ ok s a ∧ Spoilt s')
    (hgood : ∀ s a s', Good s → step s a = some s' → ok s a ∧ Good s')
    (hspoilt : ∀ s a s', Spoilt s → step s a = some s' → Spoilt s') :
    ∀ (as : List A) (s s' : S), Live s ∨ Good s → exec step s as = some s' →
      Every step ok s as ∧ (Live s' ∨ Good s') ∨ ¬ Every step ok s as ∧ Spoilt s'
  | [], s, s', hs, h => by
    obtain rfl : s = s' := Option.some.inj h
    exact Or.inl ⟨trivial, hs⟩
  | a :: as, s, s', hs, h => by
    obtain ⟨t, ht, h'⟩ := exec_cons h
    have hstep : ok s a ∧ (Live t ∨ Good t) ∨ ¬ ok s a ∧ Spoilt t := by
      rcases hs with hs | hs
      · exact hlive s a t hs ht
      · exact Or.inl ((hgood s a t hs ht).imp_right Or.inr)
    have heach : Every step ok s (a :: as) ↔ ok s a ∧ Every step ok t as := every_cons_iff ht
    rcases hstep with ⟨hok, ht'⟩ | ⟨hok, ht'⟩
    · rcases exec_dichotomy hlive hgood hspoilt as t s' ht' h' with ⟨hall, hs'⟩ | ⟨hall, hs'⟩
      · exact Or.inl ⟨heach.mpr ⟨hok, hall⟩, hs'⟩
      · exact Or.inr ⟨fun h => hall (heach.mp h).2, hs'⟩
    · exact Or.inr ⟨fun h => hok h.1, exec_invariant' hspoilt as t s' ht' h'⟩

/-- Whether a run is careful can be computed. -/
instance Every.decidable {ok : S → A → Prop} [∀ s a, Decidable (ok s a)] :
    ∀ (s : S) (as : List A), Decidable (Every step ok s as)
  | _, [] => inferInstanceAs (Decidable True)
  | s, a :: as =>
    have : ∀ s', Decidable (Every step ok s' as) := fun s' => Every.decidable s' as
    inferInstanceAs (Decidable (ok s a ∧ ∀ s' ∈ step s a, Every step ok s' as))

/-- Two careful runs, one after the other. -/
theorem Every.append {ok : S → A → Prop} {as bs : List A} {s : S} (h : Every step ok s as)
    (h' : ∀ t, exec step s as = some t → Every step ok t bs) : Every step ok s (as ++ bs) := by
  induction as generalizing s with
  | nil => exact h' s rfl
  | cons a as ih =>
    refine ⟨h.1, fun t ht => ih (h.2 t ht) fun u hu => h' u ?_⟩
    rw [exec, ht]
    exact hu

/-- A prefix of a careful run is careful. -/
theorem Every.of_append {ok : S → A → Prop} {as bs : List A} :
    ∀ {s : S}, Every step ok s (as ++ bs) → Every step ok s as := by
  induction as with
  | nil => exact fun _ => trivial
  | cons a as ih => exact fun h => ⟨h.1, fun s' hs => ih (h.2 s' hs)⟩

end Machine

end AgyProxy.Lib

import Mathlib.Data.List.Basic
import Mathlib.Logic.Function.Basic
import Mathlib.Order.Nat

/-!
# AgyProxy.Lib.Rotation — taking turns by time stamps

Whoever was stamped longest ago is next; a turn stamps who took it, or it does not.

* `Rotates Picks stamps clock turns`: turns under an advancing clock, each taken by a pick.
* `Fair E l`: nobody of `E` comes a second time before everybody else of `E` has come in between.
* `fair_iff`: when the picks are least among `E`, the turns are fair exactly when all but the last are
  stamped, or `E` has no two members.
-/

namespace AgyProxy.Lib

section Rotation

variable {κ : Type} {Picks : (κ → ℕ) → κ → Prop} {E : κ → Prop} {stamps : κ → ℕ} {clock : ℕ}

structure StampTurn (κ : Type) where
  who : κ
  time : ℕ
  stamped : Bool

section Run

variable [DecidableEq κ]

/-- The stamps after a turn. -/
def StampTurn.restamp (turn : StampTurn κ) (stamps : κ → ℕ) : κ → ℕ :=
  if turn.stamped then Function.update stamps turn.who turn.time else stamps

def Rotates (Picks : (κ → ℕ) → κ → Prop) : (κ → ℕ) → ℕ → List (StampTurn κ) → Prop
  | _, _, [] => True
  | stamps, clock, turn :: turns =>
    Picks stamps turn.who ∧ clock < turn.time ∧ Rotates Picks (turn.restamp stamps) turn.time turns

end Run

def Fair (E : κ → Prop) (l : List κ) : Prop :=
  ∀ before middle after x, l = before ++ x :: (middle ++ x :: after) → ∀ y, E y → y ≠ x → y ∈ middle

theorem fair_nil : Fair E ([] : List κ) := by
  intro before middle after x h
  exact absurd h.symm (by simp)

theorem fair_cons_iff {x : κ} {l : List κ} : Fair E (x :: l) ↔
    (∀ middle after, l = middle ++ x :: after → ∀ y, E y → y ≠ x → y ∈ middle) ∧ Fair E l := by
  constructor
  · intro h
    refine ⟨?_, ?_⟩
    · intro middle after hl
      exact h [] middle after x (congrArg _ hl)
    · intro before middle after z hl
      exact h (x :: before) middle after z (congrArg _ hl)
  · rintro ⟨hhead, htail⟩ before middle after z hl
    cases before with
    | nil =>
      obtain ⟨rfl, hl'⟩ := List.cons.inj hl
      exact hhead middle after hl'
    | cons w before =>
      exact htail before middle after z (List.cons.inj hl).2

/-- Nothing is stamped later than the clock. -/
def Stamped (E : κ → Prop) (stamps : κ → ℕ) (clock : ℕ) : Prop := ∀ y, E y → stamps y ≤ clock

variable [DecidableEq κ]

theorem Stamped.restamp (h : Stamped E stamps clock) {turn : StampTurn κ} (hlt : clock < turn.time) :
    Stamped E (turn.restamp stamps) turn.time := by
  intro y hy
  have hle : stamps y ≤ turn.time := (h y hy).trans hlt.le
  unfold StampTurn.restamp
  split
  · by_cases hyw : y = turn.who
    · rw [hyw, Function.update_self]
    · rwa [Function.update_of_ne hyw]
  · exact hle

/-- Who was stamped after `y` does not come again before `y`. -/
theorem Rotates.overtaken (hleast : ∀ stamps x, Picks stamps x → ∀ y, E y → stamps x ≤ stamps y) {x y : κ} (hy : E y) :
    ∀ {turns : List (StampTurn κ)} {stamps : κ → ℕ} {clock : ℕ} {middle after : List κ}, Stamped E stamps clock →
      Rotates Picks stamps clock turns → stamps y < stamps x → turns.map StampTurn.who = middle ++ x :: after →
      y ∈ middle
  | [], _, _, middle, after, _, _, _, htrace => absurd htrace.symm (by simp)
  | turn :: turns, stamps, clock, middle, after, hstamped, hrun, hlt, htrace => by
    obtain ⟨hpick, hclock, hrest⟩ := hrun
    cases middle with
    | nil =>
      obtain ⟨rfl, -⟩ := List.cons.inj htrace
      exact absurd (hleast stamps _ hpick y hy) (not_le.mpr hlt)
    | cons z middle =>
      obtain ⟨rfl, htrace'⟩ := List.cons.inj htrace
      by_cases hyw : y = turn.who
      · exact hyw ▸ List.mem_cons_self
      · refine List.mem_cons_of_mem _ (overtaken hleast hy (hstamped.restamp hclock) hrest ?_ htrace')
        unfold StampTurn.restamp
        split
        · rw [Function.update_of_ne hyw]
          by_cases hxw : x = turn.who
          · rw [hxw, Function.update_self]
            exact (hstamped y hy).trans_lt hclock
          · rwa [Function.update_of_ne hxw]
        · exact hlt

/-- Stamped turns are fair. -/
theorem Rotates.fair (hleast : ∀ stamps x, Picks stamps x → ∀ y, E y → stamps x ≤ stamps y) :
    ∀ {turns : List (StampTurn κ)} {stamps : κ → ℕ} {clock : ℕ}, Stamped E stamps clock →
      Rotates Picks stamps clock turns → (∀ turn ∈ turns.dropLast, turn.stamped = true) →
      Fair E (turns.map StampTurn.who)
  | [], _, _, _, _, _ => fair_nil
  | [turn], _, _, _, _, _ => by
    refine fair_cons_iff.mpr ⟨?_, fair_nil⟩
    intro middle after h
    exact absurd h.symm (by simp)
  | turn :: turn' :: turns, stamps, clock, hstamped, hrun, hall => by
    obtain ⟨-, hclock, hrest⟩ := hrun
    have hstamp : turn.stamped = true := hall turn List.mem_cons_self
    have hrestamped := hstamped.restamp hclock
    refine fair_cons_iff.mpr ⟨?_, Rotates.fair hleast hrestamped hrest fun u hu => hall u (List.mem_cons_of_mem _ hu)⟩
    intro middle after htrace y hy hne
    refine Rotates.overtaken hleast hy hrestamped hrest ?_ htrace
    unfold StampTurn.restamp
    rw [if_pos hstamp, Function.update_self, Function.update_of_ne hne]
    exact (hstamped y hy).trans_lt hclock

/-- After a turn that does not stamp, the same one is picked again. -/
theorem Rotates.stamped_of_fair (hfun : ∀ stamps x y, Picks stamps x → Picks stamps y → x = y)
    (htwo : ∀ x, ∃ y, E y ∧ y ≠ x) :
    ∀ {turns : List (StampTurn κ)} {stamps : κ → ℕ} {clock : ℕ}, Rotates Picks stamps clock turns →
      Fair E (turns.map StampTurn.who) → ∀ turn ∈ turns.dropLast, turn.stamped = true
  | [], _, _, _, _ => fun _ h => absurd h List.not_mem_nil
  | [_], _, _, _, _ => fun _ h => absurd h List.not_mem_nil
  | turn :: turn' :: turns, stamps, clock, hrun, hfair => by
    obtain ⟨hpick, -, hrest⟩ := hrun
    obtain ⟨hhead, htail⟩ := fair_cons_iff.mp hfair
    rintro u hu
    rcases List.mem_cons.mp hu with rfl | hu
    · by_contra hnot
      have hsame : turn'.who = u.who := by
        have hpick' := hrest.1
        unfold StampTurn.restamp at hpick'
        rw [if_neg hnot] at hpick'
        exact hfun stamps _ _ hpick' hpick
      obtain ⟨y, hy, hne⟩ := htwo u.who
      exact List.not_mem_nil (hhead [] (turns.map StampTurn.who) (by rw [List.map_cons, hsame]; rfl) y hy hne)
    · exact Rotates.stamped_of_fair hfun htwo hrest htail u hu

/-- Among less than two there is nothing to wait for. -/
theorem Rotates.fair_of_subsingleton (hmem : ∀ stamps x, Picks stamps x → E x) (hone : ∀ x y, E x → E y → x = y) :
    ∀ {turns : List (StampTurn κ)} {stamps : κ → ℕ} {clock : ℕ}, Rotates Picks stamps clock turns →
      Fair E (turns.map StampTurn.who)
  | [], _, _, _ => fair_nil
  | turn :: turns, stamps, clock, hrun => by
    refine fair_cons_iff.mpr ⟨?_, Rotates.fair_of_subsingleton hmem hone hrun.2.2⟩
    intro middle after _ y hy hne
    exact absurd (hone y turn.who hy (hmem stamps _ hrun.1)) hne

/-- **When turns are fair**. -/
theorem fair_iff (hmem : ∀ stamps x, Picks stamps x → E x)
    (hleast : ∀ stamps x, Picks stamps x → ∀ y, E y → stamps x ≤ stamps y)
    (hfun : ∀ stamps x y, Picks stamps x → Picks stamps y → x = y) (hstamped : Stamped E stamps clock)
    {turns : List (StampTurn κ)} (hrun : Rotates Picks stamps clock turns) :
    Fair E (turns.map StampTurn.who) ↔
      (∀ turn ∈ turns.dropLast, turn.stamped = true) ∨ ∀ x y, E x → E y → x = y := by
  constructor
  · intro hfair
    by_cases hone : ∀ x y, E x → E y → x = y
    · exact Or.inr hone
    · refine Or.inl (Rotates.stamped_of_fair hfun ?_ hrun hfair)
      push Not at hone
      obtain ⟨a, b, ha, hb, hab⟩ := hone
      intro x
      by_cases hax : a = x
      · exact ⟨b, hb, fun h => hab (hax.trans h.symm)⟩
      · exact ⟨a, ha, hax⟩
  · rintro (hall | hone)
    · exact Rotates.fair hleast hstamped hrun hall
    · exact Rotates.fair_of_subsingleton hmem hone hrun

end Rotation

end AgyProxy.Lib

import AgyProxy.Lib.Machine
import Mathlib.Order.Nat

/-!
# AgyProxy.Lib.Timers — timers of an event loop

A timer is the instant it is due, while it is armed.  It never fires early; how late it may fire is a bound on the
runs of a machine, since an event loop that is busy fires its timers late.

* `Timer.ready`: the timer may fire; `OnTime`: no armed timer is more than `late` behind.
* `Always`: a condition on every state of a run, with its invariant rule `exec_always`.
* `OnTime.le`: what an armed timer says about the clock; `Timer.le_of_ready`: what a firing one says.
-/

namespace AgyProxy.Lib

/-- The instant the timer is due, while it is armed. -/
abbrev Timer := Option ℕ

section Timers

/-- The timer may fire. -/
def Timer.ready (t : Timer) (now : ℕ) : Bool := t.any fun due => decide (due ≤ now)

/-- No armed timer is more than `late` behind. -/
def OnTime (late now : ℕ) (timers : List Timer) : Prop := ∀ t ∈ timers, ∀ due ∈ t, now ≤ due + late

instance OnTime.decidable (late now : ℕ) (timers : List Timer) : Decidable (OnTime late now timers) :=
  inferInstanceAs (Decidable (∀ t ∈ timers, ∀ due ∈ t, now ≤ due + late))

theorem Timer.exists_of_ready {t : Timer} {now : ℕ} (h : t.ready now = true) : ∃ due, t = some due ∧ due ≤ now := by
  cases t with
  | none => exact absurd h Bool.false_ne_true
  | some due => exact ⟨due, rfl, of_decide_eq_true h⟩

theorem OnTime.le {late now : ℕ} {timers : List Timer} (h : OnTime late now timers) {due : ℕ}
    (hmem : some due ∈ timers) : now ≤ due + late := h (some due) hmem due rfl

end Timers

section Always

variable {S A : Type} {step : S → A → Option S}

/-- `P` holds in every state of the run. -/
def Always (step : S → A → Option S) (P : S → Prop) (s : S) (as : List A) : Prop :=
  Every step (fun s _ => P s) s as ∧ ∀ s', exec step s as = some s' → P s'

instance Always.decidable {P : S → Prop} [DecidablePred P] (s : S) (as : List A) :
    Decidable (Always step P s as) :=
  inferInstanceAs (Decidable (Every step (fun s _ => P s) s as ∧ ∀ s' ∈ exec step s as, P s'))

/-- **Invariant rule** for runs that stay in `P`: a step may use `P` of the state it is taken in. -/
theorem exec_always {P I : S → Prop} (hstep : ∀ s a s', I s → P s → step s a = some s' → I s') {as : List A}
    {s s' : S} (hI : I s) (hP : Always step P s as) (h : exec step s as = some s') : I s' ∧ P s' :=
  ⟨exec_invariant hstep as s s' hI hP.1 h, hP.2 s' h⟩

end Always

end AgyProxy.Lib

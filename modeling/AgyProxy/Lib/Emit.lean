import Mathlib.Data.List.Basic

/-!
# AgyProxy.Lib.Emit — generators over a state

An `Emit σ ω` is one call of a generator that keeps its state in `σ` and yields values of `ω`: it ends
with a new state and what it yielded, in order.

* `Emit.seq` and the laws of its two components.
* `Emit.Triple P f Q`: pre- and postconditions over the state and everything yielded so far, with the
  rules for a yield, a change of the state, a sequence and a choice.
-/

namespace AgyProxy.Lib

/-- One call of a generator: the state it leaves and the values it yields. -/
abbrev Emit (σ ω : Type) := σ → σ × List ω

namespace Emit

variable {σ ω : Type}

/-- Yields nothing and changes nothing. -/
def nop : Emit σ ω := fun s => (s, [])

/-- Change the state, yield nothing. -/
def modify (f : σ → σ) : Emit σ ω := fun s => (f s, [])

/-- Yield values computed from the state. -/
def yields (out : σ → List ω) : Emit σ ω := fun s => (s, out s)

/-- `yield* f; yield* g`. -/
def seq (f g : Emit σ ω) : Emit σ ω := fun s => ((g (f s).1).1, (f s).2 ++ (g (f s).1).2)

@[simp] theorem nop_apply (s : σ) : (nop : Emit σ ω) s = (s, []) := rfl

@[simp] theorem modify_apply (f : σ → σ) (s : σ) : (modify f : Emit σ ω) s = (f s, []) := rfl

@[simp] theorem yields_apply (out : σ → List ω) (s : σ) : yields out s = (s, out s) := rfl

@[simp] theorem seq_fst (f g : Emit σ ω) (s : σ) : (seq f g s).1 = (g (f s).1).1 := rfl

@[simp] theorem seq_snd (f g : Emit σ ω) (s : σ) : (seq f g s).2 = (f s).2 ++ (g (f s).1).2 := rfl

/-- From a state and a history satisfying `P`, the call leads to ones satisfying `Q`. -/
def Triple (P : σ → List ω → Prop) (f : Emit σ ω) (Q : σ → List ω → Prop) : Prop :=
  ∀ s out, P s out → Q (f s).1 (out ++ (f s).2)

section Rules

variable {P Q R : σ → List ω → Prop} {f g : Emit σ ω}

theorem Triple.nop (h : ∀ s out, P s out → Q s out) : Triple P nop Q := by
  intro s out hP
  rw [nop_apply, List.append_nil]
  exact h s out hP

theorem Triple.modify {u : σ → σ} (h : ∀ s out, P s out → Q (u s) out) : Triple P (modify u) Q := by
  intro s out hP
  rw [modify_apply, List.append_nil]
  exact h s out hP

theorem Triple.yields {o : σ → List ω} (h : ∀ s out, P s out → Q s (out ++ o s)) :
    Triple P (yields o) Q :=
  fun s out hP => h s out hP

theorem Triple.seq (hf : Triple P f Q) (hg : Triple Q g R) : Triple P (seq f g) R := by
  intro s out hP
  rw [seq_fst, seq_snd, ← List.append_assoc]
  exact hg _ _ (hf s out hP)

theorem Triple.conseq {P' Q' : σ → List ω → Prop} (h : Triple P f Q) (hP : ∀ s out, P' s out → P s out)
    (hQ : ∀ s out, Q s out → Q' s out) : Triple P' f Q' :=
  fun s out hs => hQ _ _ (h s out (hP s out hs))

end Rules

end Emit

end AgyProxy.Lib

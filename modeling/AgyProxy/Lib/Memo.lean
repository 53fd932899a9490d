import Mathlib.Logic.Function.Basic
import Mathlib.Order.Basic

/-!
# AgyProxy.Lib.Memo — a memo whose entries hold for one epoch

A cache holds, for some keys, a value stamped with the epoch it was computed in.  The function it stands for
may change at will when an epoch ends.

* `MemoAgrees`: no stamp lies ahead, and the entries of the current epoch are the function's values.
* `MemoAgrees.advance`, `MemoAgrees.set`, `MemoAgrees.stale`: the rules for time passing, for an entry
  written, and for a change of the function at a key without an entry of the epoch.
-/

namespace AgyProxy.Lib

section Memo

variable {K C E V : Type} [PartialOrder E] {epoch : C → E} {value : C → V} {cache : K → Option C}
  {f f' : K → V} {now now' : E} {k : K} {c : C}

structure MemoAgrees (epoch : C → E) (value : C → V) (cache : K → Option C) (f : K → V) (now : E) : Prop where
  past : ∀ k c, cache k = some c → epoch c ≤ now
  right : ∀ k c, cache k = some c → epoch c = now → value c = f k

namespace MemoAgrees

theorem empty : MemoAgrees epoch value (fun _ : K => none) f now :=
  ⟨fun _ _ h => absurd h.symm (Option.some_ne_none _), fun _ _ h => absurd h.symm (Option.some_ne_none _)⟩

/-- Time passes: only within an epoch does the function keep its values. -/
theorem advance (h : MemoAgrees epoch value cache f now) (hle : now ≤ now')
    (hf : now = now' → ∀ k, f' k = f k) : MemoAgrees epoch value cache f' now' := by
  refine ⟨fun k c hk => (h.past k c hk).trans hle, fun k c hk hc => ?_⟩
  have hsame : now = now' := le_antisymm hle (hc ▸ h.past k c hk)
  rw [hf hsame k]
  exact h.right k c hk (hc.trans hsame.symm)

/-- The function changes at a key the cache has no entry of this epoch for. -/
theorem stale (h : MemoAgrees epoch value cache f now) (hother : ∀ k', k' ≠ k → f' k' = f k')
    (hstale : ∀ c, cache k = some c → epoch c ≠ now) : MemoAgrees epoch value cache f' now := by
  refine ⟨h.past, fun k' c hk' hc => ?_⟩
  by_cases hkk : k' = k
  · subst hkk
    exact absurd hc (hstale c hk')
  · rw [hother k' hkk]
    exact h.right k' c hk' hc

/-- An entry is written for a key, the only one the function may change at. -/
theorem set [DecidableEq K] (h : MemoAgrees epoch value cache f now) (hother : ∀ k', k' ≠ k → f' k' = f k')
    (hepoch : epoch c = now) (hvalue : value c = f' k) :
    MemoAgrees epoch value (Function.update cache k (some c)) f' now := by
  refine ⟨fun k' c' hk' => ?_, fun k' c' hk' hc' => ?_⟩
  · by_cases hkk : k' = k
    · subst hkk
      rw [Function.update_self] at hk'
      exact (Option.some.inj hk' ▸ hepoch).le
    · rw [Function.update_of_ne hkk] at hk'
      exact h.past k' c' hk'
  · by_cases hkk : k' = k
    · subst hkk
      rw [Function.update_self] at hk'
      exact Option.some.inj hk' ▸ hvalue
    · rw [Function.update_of_ne hkk] at hk'
      rw [hother k' hkk]
      exact h.right k' c' hk' hc'

end MemoAgrees

end Memo

end AgyProxy.Lib

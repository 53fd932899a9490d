import AgyProxy.Lib.Machine
import Mathlib.Order.Nat

/-!
# AgyProxy.Lib.Deferred — a time stamp that is stored at most once per window

A cell keeps the stored stamp, the last one written and one that is deferred.  A stamp that comes a window or more
after the last write is written at once; another one is deferred, and the latest deferred one is written by a flush.

* `Deferred.touch`, `Deferred.flush`: the two operations; `DeferredRun`: the cell with its clock and its history.
* `Reconciled`: what relates the three stamps to the history; each operation keeps it (`Reconciled.touch`,
  `Reconciled.flush`).
* `Reconciled.flush_stored`: a flush stores the last stamp; `stored_le_touch`, `stored_le_flush`: the stored stamp
  only grows.
-/

namespace AgyProxy.Lib

section Deferred

structure Deferred where
  stored : Option ℕ
  written : Option ℕ
  pending : Option ℕ

namespace Deferred

variable (window : ℕ)

/-- The stamp is due: a window has passed since the last write. -/
def due (c : Deferred) (now : ℕ) : Bool := decide (c.written.getD 0 + window ≤ now)

def touch (c : Deferred) (now : ℕ) : Deferred :=
  if c.due window now then ⟨some now, some now, none⟩ else { c with pending := some now }

def flush (c : Deferred) : Deferred :=
  match c.pending with
  | some ts => ⟨some ts, some ts, none⟩
  | none => c

/-- An operation has stored the stamp `now`: it did not show before, or nothing is left for a flush. -/
def storedNow (c c' : Deferred) (now : ℕ) : Bool :=
  decide (c'.stored = some now) && (c'.pending.isNone || decide (c.stored ≠ some now))

/-- A touch stores its stamp exactly when it is due. -/
theorem storedNow_touch (c : Deferred) (now : ℕ) : c.storedNow (c.touch window now) now = c.due window now := by
  unfold storedNow touch
  cases c.due window now with
  | true => simp
  | false => simp

/-- No stamp, or one that is not after the other. -/
def NotAfter (a b : Option ℕ) : Prop := ∀ t ∈ a, ∃ t' ∈ b, t ≤ t'

theorem NotAfter.refl (a : Option ℕ) : NotAfter a a := fun t ht => ⟨t, ht, le_rfl⟩

theorem NotAfter.trans {a b c : Option ℕ} (hab : NotAfter a b) (hbc : NotAfter b c) : NotAfter a c := by
  intro t ht
  obtain ⟨t', ht', hle⟩ := hab t ht
  obtain ⟨t'', ht'', hle'⟩ := hbc t' ht'
  exact ⟨t'', ht'', hle.trans hle'⟩

/-- The stamps of a cell after its history: the clock, the last stamp and the writes that were not deferred. -/
structure Reconciled (c : Deferred) (clock : ℕ) (last : Option ℕ) (immediate : List ℕ) : Prop where
  stored_le : ∀ t ∈ c.stored, t ≤ clock
  written : ∀ w ∈ c.written, c.stored = some w
  pending : ∀ p ∈ c.pending, last = some p ∧ p ≤ clock ∧ NotAfter c.stored (some p)
  landed : c.pending = none → ∀ t ∈ last, c.stored = some t
  spaced : immediate.Pairwise fun t t' => t + window ≤ t'
  before : ∀ t ∈ immediate, ∃ w ∈ c.written, t ≤ w

variable {window} {c : Deferred} {clock now : ℕ} {last : Option ℕ} {immediate : List ℕ}

/-- A cell of an earlier history: only the stored stamp is left. -/
theorem reconciled_new {stored : Option ℕ} (h : ∀ t ∈ stored, t ≤ clock) :
    Reconciled window ⟨stored, none, none⟩ clock none [] := by
  refine ⟨h, ?_, ?_, ?_, List.Pairwise.nil, ?_⟩
  · exact fun w hw => nomatch hw
  · exact fun p hp => nomatch hp
  · exact fun _ t ht => nomatch ht
  · exact fun t ht => absurd ht List.not_mem_nil

theorem Reconciled.notAfter_clock (h : c.Reconciled window clock last immediate) (hnow : clock ≤ now) :
    NotAfter c.stored (some now) := fun t ht => ⟨now, rfl, (h.stored_le t ht).trans hnow⟩

/-- **A stamp**, written at once or deferred. -/
theorem Reconciled.touch (h : c.Reconciled window clock last immediate) (hnow : clock ≤ now) :
    (c.touch window now).Reconciled window now (some now)
      (if c.due window now then immediate ++ [now] else immediate) := by
  unfold Deferred.touch
  by_cases hdue : c.due window now = true
  · rw [if_pos hdue, if_pos hdue]
    have hlater : c.written.getD 0 + window ≤ now := of_decide_eq_true hdue
    refine ⟨?_, ?_, ?_, ?_, ?_, ?_⟩
    · rintro t ⟨⟩
      exact le_rfl
    · rintro w ⟨⟩
      rfl
    · exact fun p hp => nomatch hp
    · rintro - t ⟨⟩
      rfl
    · refine List.pairwise_append.mpr ⟨h.spaced, List.pairwise_singleton _ _, ?_⟩
      intro t ht t' ht'
      rw [List.mem_singleton.mp ht']
      obtain ⟨w, hw, hle⟩ := h.before t ht
      have hwritten : c.written.getD 0 = w := by
        rw [Option.mem_def.mp hw]
        rfl
      omega
    · intro t ht
      refine ⟨now, rfl, ?_⟩
      rcases List.mem_append.mp ht with ht | ht
      · obtain ⟨w, hw, hle⟩ := h.before t ht
        have hstored := h.stored_le w (h.written w hw)
        omega
      · rw [List.mem_singleton.mp ht]
  · rw [if_neg hdue, if_neg hdue]
    refine ⟨fun t ht => (h.stored_le t ht).trans hnow, h.written, ?_, ?_, h.spaced, h.before⟩
    · rintro p ⟨⟩
      exact ⟨rfl, le_rfl, h.notAfter_clock hnow⟩
    · exact fun hnone => nomatch hnone

/-- **A flush** writes the deferred stamp. -/
theorem Reconciled.flush (h : c.Reconciled window clock last immediate) :
    c.flush.Reconciled window clock last immediate := by
  unfold Deferred.flush
  cases hpending : c.pending with
  | none => exact h
  | some p =>
    obtain ⟨hlast, hle, hafter⟩ := h.pending p hpending
    refine ⟨?_, ?_, ?_, ?_, h.spaced, ?_⟩
    · rintro t ⟨⟩
      exact hle
    · rintro w ⟨⟩
      rfl
    · exact fun q hq => nomatch hq
    · intro _ t ht
      exact hlast.symm.trans ht
    · intro t ht
      obtain ⟨w, hw, hle'⟩ := h.before t ht
      obtain ⟨q, hq, hwq⟩ := hafter w (h.written w hw)
      exact ⟨q, hq, hle'.trans hwq⟩

/-- The clock moves on. -/
theorem Reconciled.later (h : c.Reconciled window clock last immediate) (hnow : clock ≤ now) :
    c.Reconciled window now last immediate :=
  { h with
    stored_le := fun t ht => (h.stored_le t ht).trans hnow
    pending := fun p hp => ⟨(h.pending p hp).1, (h.pending p hp).2.1.trans hnow, (h.pending p hp).2.2⟩ }

/-- **After a flush the last stamp is the stored one.** -/
theorem Reconciled.flush_stored (h : c.Reconciled window clock last immediate) {t : ℕ} (ht : last = some t) :
    c.flush.stored = some t := by
  refine h.flush.landed ?_ t ht
  unfold Deferred.flush
  cases hpending : c.pending with
  | none => exact hpending
  | some p => rfl

theorem Reconciled.stored_touch (h : c.Reconciled window clock last immediate) (hnow : clock ≤ now) :
    NotAfter c.stored (c.touch window now).stored := by
  unfold Deferred.touch
  split
  · exact h.notAfter_clock hnow
  · exact NotAfter.refl _

theorem Reconciled.stored_flush (h : c.Reconciled window clock last immediate) : NotAfter c.stored c.flush.stored := by
  unfold Deferred.flush
  cases hpending : c.pending with
  | none => exact NotAfter.refl _
  | some p => exact (h.pending p hpending).2.2

end Deferred

end Deferred

end AgyProxy.Lib

import Mathlib.Data.List.Basic

/-!
# AgyProxy.Lib.Window — how many events fall into a sliding window

Events are given by their times, oldest first.

* `inWindow`: the events of the `width` instants from `t` on; `recent`: those of the last `width` instants.
* `Bounded`: no window has more than `n` events.
* `bounded_concat_iff`: a new latest event keeps the windows bounded exactly when fewer than `n` are recent.
-/

namespace AgyProxy.Lib

section Window

variable {width n now : ℕ} {times : List ℕ}

/-- The events of the window that starts at `t`. -/
def inWindow (width t : ℕ) (times : List ℕ) : List ℕ := times.filter fun x => decide (t ≤ x ∧ x < t + width)

/-- The events that are younger than `width` at `now`. -/
def recent (width now : ℕ) (times : List ℕ) : List ℕ := times.filter fun x => decide (now < x + width)

/-- No window has more than `n` events. -/
def Bounded (width n : ℕ) (times : List ℕ) : Prop := ∀ t, (inWindow width t times).length ≤ n

theorem inWindow_concat (width t now : ℕ) (times : List ℕ) : inWindow width t (times ++ [now]) =
    inWindow width t times ++ if t ≤ now ∧ now < t + width then [now] else [] := by
  unfold inWindow
  rw [List.filter_append, List.filter_cons, List.filter_nil]
  simp only [decide_eq_true_eq]

/-- More events fill the windows more. -/
theorem Bounded.of_append {as bs : List ℕ} (h : Bounded width n (as ++ bs)) : Bounded width n as := by
  intro t
  have hall := h t
  unfold inWindow at hall ⊢
  rw [List.filter_append, List.length_append] at hall
  omega

/-- What is in a window with `now` is recent. -/
theorem inWindow_length_le {t : ℕ} (hnow : now < t + width) :
    (inWindow width t times).length ≤ (recent width now times).length := by
  unfold inWindow recent
  refine List.Sublist.length_le (List.monotone_filter_right times ?_)
  intro x hx
  have hx' := of_decide_eq_true hx
  exact decide_eq_true (by omega)

/-- The recent events are those of the window that ends now. -/
theorem recent_eq_inWindow (hlast : ∀ x ∈ times, x ≤ now) :
    recent width now times = inWindow width (now + 1 - width) times := by
  unfold recent inWindow
  refine List.filter_congr fun x hx => ?_
  have hx' := hlast x hx
  exact decide_eq_decide.mpr (by omega)

/-- **The last event decides**: with it no window overflows exactly when none did and there was room among the
recent events. -/
theorem bounded_concat_iff (hwidth : 0 < width) (hlast : ∀ x ∈ times, x ≤ now) :
    Bounded width n (times ++ [now]) ↔ Bounded width n times ∧ (recent width now times).length < n := by
  constructor
  · intro h
    refine ⟨h.of_append, ?_⟩
    -- the window that ends with the new event
    have hwin := h (now + 1 - width)
    rw [inWindow_concat, if_pos (by omega), ← recent_eq_inWindow hlast, List.length_append,
      List.length_singleton] at hwin
    omega
  · rintro ⟨h, hroom⟩ t
    rw [inWindow_concat, List.length_append]
    by_cases hin : t ≤ now ∧ now < t + width
    · have hle : (inWindow width t times).length ≤ (recent width now times).length := inWindow_length_le hin.2
      rw [if_pos hin, List.length_singleton]
      omega
    · rw [if_neg hin, List.length_nil]
      exact h t

end Window

end AgyProxy.Lib

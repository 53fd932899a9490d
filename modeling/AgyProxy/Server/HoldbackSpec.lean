import AgyProxy.Server.StreamGuardsSpec

/-!
# AgyProxy.Server.HoldbackSpec — the stop holdback is safe at every push, and no slower than it must be

* `LongestHold`: the longest suffix of a text that may still become a stop.
* `Undecided.longestHold`: that is what the holdback withholds while nothing has matched.
* `OnlineSafe`: what holds after any pushes; `onlineSafe_nonempty`: **it does, for the stops that are not empty**.
-/

namespace AgyProxy

open Js Lib

namespace StopHoldback

/-- `held` is the longest suffix of the text that is a proper prefix of some stop, nothing when there is none. -/
structure LongestHold (stops : List JsString) (text held : JsString) : Prop where
  suffix : held <:+ text
  begins : held = [] ∨ Begins stops held
  longest : ∀ w, w <:+ text → Begins stops w → w.length ≤ held.length

section Holdback

variable {stops : List JsString} {hb : StopHoldback} {emitted : JsString}

/-- A pattern is a substring exactly when it occurs somewhere. -/
theorem infix_iff_occurs {p text : JsString} : p <:+: text ↔ ∃ i, Occurs p text i := by
  constructor
  · rintro ⟨before, after, rfl⟩
    have hhead : Occurs p (p ++ after) 0 := List.prefix_append p after
    refine ⟨before.length + 0, ?_⟩
    rw [List.append_assoc]
    exact occurs_append_right.mpr hhead
  · rintro ⟨i, hi⟩
    exact (List.IsPrefix.isInfix hi).trans (List.drop_suffix i text).isInfix

/-- A longer suffix that begins a stop would reach into the text let through. -/
theorem Undecided.longestHold (h : Undecided stops hb emitted) (hbegins : hb.buffer = [] ∨ Begins stops hb.buffer) :
    LongestHold stops (emitted ++ hb.buffer) hb.buffer where
  suffix := List.suffix_append _ _
  begins := hbegins
  longest := by
    rintro w hw ⟨s, hs, ⟨rest, rfl⟩, hlt⟩
    by_contra hlonger
    have hlen := hw.length_le
    rw [List.length_append] at hlen
    refine h.safe _ hs ((emitted ++ hb.buffer).length - w.length) ?_ rest ?_
    · rw [List.length_append]
      omega
    · unfold Occurs
      rw [List.drop_append_of_le_length (Nat.sub_le _ _), ← List.suffix_iff_eq_drop.mp hw]

/-- Without a match the close gives out what is withheld. -/
theorem Undecided.close_eq (h : Undecided stops hb emitted) : hb.close.1 = (hb.buffer, none) := by
  have hnone : firstMatch hb.buffer stops = none :=
    firstMatch_eq_none_iff.mpr fun s hs i ho => h.no_match s hs _ (occurs_append_right.mpr ho)
  unfold close earliestMatch
  rw [h.matched_eq, h.stops_eq, hnone]

/-- After a match neither pushes nor the close give out anything. -/
theorem silent_of_matched {s : JsString} (h : hb.matched = some s) (more : List JsString) :
    emittedAll hb more = [] ∧ (pushAll hb more).close.1.1 = [] := by
  refine ⟨emittedAll_matched h more, ?_⟩
  rw [pushAll_matched h]
  unfold close
  rw [h]

end Holdback

/-- What holds of a new holdback after the pushes `ts`, the `stops` being what is looked for in the text. -/
structure OnlineSafe (hb : StopHoldback) (stops ts : List JsString) : Prop where
  emitted : emittedAll hb ts <+: ts.flatten
  clean : ∀ s ∈ stops, ¬ s <:+: emittedAll hb ts
  withheld : (pushAll hb ts).matched = none →
    ∃ held, emittedAll hb ts ++ held = ts.flatten ∧ LongestHold stops ts.flatten held
  matched : ∀ s, (pushAll hb ts).matched = some s →
    s ∈ stops ∧ emittedAll hb ts ++ s <+: ts.flatten ∧
      ∀ more, emittedAll (pushAll hb ts) more = [] ∧ (pushAll (pushAll hb ts) more).close.1.1 = []
  closed : (pushAll hb ts).matched = none →
    (pushAll hb ts).close.1.2 = none ∧ emittedAll hb ts ++ (pushAll hb ts).close.1.1 = ts.flatten ∧
      ∀ s ∈ stops, ¬ s <:+: ts.flatten

section Online

variable {hb : StopHoldback} {stops ts : List JsString}

/-- After a match. -/
theorem Decided.onlineSafe (h : Decided stops (pushAll hb ts) (emittedAll hb ts) ts.flatten) :
    OnlineSafe hb stops ts := by
  obtain ⟨s, hs, hmatched, hpre, hclean⟩ := h
  refine ⟨(List.prefix_append _ _).trans hpre, fun q hq hin => ?_, fun hnone => ?_, fun q hq => ?_, fun hnone => ?_⟩
  · obtain ⟨i, hi⟩ := infix_iff_occurs.mp hin
    exact hclean q hq i hi
  · exact absurd (hmatched.symm.trans hnone) (Option.some_ne_none s)
  · obtain rfl : s = q := Option.some.inj (hmatched.symm.trans hq)
    exact ⟨hs, hpre, silent_of_matched hmatched⟩
  · exact absurd (hmatched.symm.trans hnone) (Option.some_ne_none s)

/-- Before a match. -/
theorem Undecided.onlineSafe (h : Undecided stops (pushAll hb ts) (emittedAll hb ts))
    (hwhole : emittedAll hb ts ++ (pushAll hb ts).buffer = ts.flatten)
    (hbegins : (pushAll hb ts).buffer = [] ∨ Begins stops (pushAll hb ts).buffer) : OnlineSafe hb stops ts := by
  have hclean : ∀ s ∈ stops, ¬ s <:+: ts.flatten := by
    rintro s hs hin
    obtain ⟨i, hi⟩ := infix_iff_occurs.mp hin
    exact h.no_match s hs i (hwhole ▸ hi)
  have hemitted : emittedAll hb ts <+: ts.flatten := hwhole ▸ List.prefix_append _ _
  refine ⟨hemitted, fun s hs hin => ?_, fun _ => ?_, fun s hs => ?_, fun _ => ?_⟩
  · exact hclean s hs (hin.trans hemitted.isInfix)
  · exact ⟨_, hwhole, hwhole ▸ h.longestHold hbegins⟩
  · exact absurd (h.matched_eq.symm.trans hs) (Option.some_ne_none s).symm
  · rw [h.close_eq]
    exact ⟨rfl, hwhole, hclean⟩

end Online

/-- **The holdback, online**: for every list of stops and after every sequence of pushes, the stops that are
not empty are never let through, withheld no longer than needed, and cut at. -/
theorem onlineSafe_nonempty (stops ts : List JsString) : OnlineSafe (new stops) (stops.filter (· ≠ [])) ts := by
  set kept := stops.filter (· ≠ []) with hkept
  have hne : ∀ s ∈ kept, s ≠ [] := fun s hs => of_decide_eq_true (List.mem_filter.mp hs).2
  have hnew : new stops = new kept := by
    unfold new
    rw [← hkept, List.filter_eq_self.mpr fun s hs => decide_eq_true (hne s hs)]
  rw [hnew]
  rcases pushAll_cases hne ts (new_undecided hne) (Or.inl rfl) with hdecided | ⟨hund, hwhole, hbegins⟩
  · exact Decided.onlineSafe hdecided
  · exact Undecided.onlineSafe hund hwhole hbegins

/-- An empty stop is in every text; the holdback leaves it out. -/
theorem not_onlineSafe_empty : ¬ OnlineSafe (new [[]]) [[]] [js "a"] := fun h =>
  h.clean [] List.mem_cons_self List.nil_infix

end StopHoldback

end AgyProxy

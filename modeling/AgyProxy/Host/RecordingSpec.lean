import AgyProxy.Host.Recording
import AgyProxy.Js.NumberSpec

/-!
# AgyProxy.Host.RecordingSpec — stored indices and call ids

* `Capped`: in a recorded log every event behind the cap is a result; `append` keeps it.  Hence the index
  of a stored step is a safe integer.
* `parse_mirrorCallId`: a minted call id parses back to its run and its index.
* What `append` and `settle` do to the log: it only ever grows, and not once settled.
-/

namespace AgyProxy

open Js

/-! ### Call ids -/

section CallIds

theorem lastIndexOf_eq_none_iff {c : UInt16} : ∀ {s : JsString}, lastIndexOf c s = none ↔ c ∉ s
  | [] => ⟨fun _ => List.not_mem_nil, fun _ => rfl⟩
  | x :: s => by
    unfold lastIndexOf
    cases hs : lastIndexOf c s with
    | some i =>
      have hmem : c ∈ s := by
        by_contra hnot
        rw [lastIndexOf_eq_none_iff.mpr hnot] at hs
        exact Option.some_ne_none i hs.symm
      exact ⟨fun h => absurd h (Option.some_ne_none _), fun h => absurd (List.mem_cons_of_mem x hmem) h⟩
    | none =>
      have hnot := lastIndexOf_eq_none_iff.mp hs
      by_cases hx : x = c
      · subst hx
        exact ⟨fun h => absurd ((if_pos rfl).symm.trans h) (Option.some_ne_none 0), fun h => absurd List.mem_cons_self h⟩
      · exact ⟨fun _ h => (List.mem_cons.mp h).elim (fun he => hx he.symm) hnot, fun _ => if_neg hx⟩

/-- `lastIndexOf` finds the separator: behind it there is none. -/
theorem lastIndexOf_append (c : UInt16) (b : JsString) (hb : c ∉ b) : ∀ a : JsString,
    lastIndexOf c (a ++ c :: b) = some a.length
  | [] => by
    rw [List.nil_append, lastIndexOf, lastIndexOf_eq_none_iff.mpr hb]
    exact if_pos rfl
  | x :: a => by
    rw [List.cons_append, lastIndexOf, lastIndexOf_append c b hb a]
    rfl

theorem eq_append_of_lastIndexOf {c : UInt16} : ∀ {s : JsString} {i : ℕ}, lastIndexOf c s = some i →
    ∃ a b, s = a ++ c :: b ∧ c ∉ b ∧ a.length = i
  | [], i, h => absurd h.symm (Option.some_ne_none i)
  | x :: s, i, h => by
    unfold lastIndexOf at h
    cases hs : lastIndexOf c s with
    | some k =>
      rw [hs] at h
      obtain rfl : k + 1 = i := Option.some.inj h
      obtain ⟨a, b, rfl, hb, rfl⟩ := eq_append_of_lastIndexOf hs
      exact ⟨x :: a, b, rfl, hb, rfl⟩
    | none =>
      rw [hs] at h
      by_cases hx : x = c
      · obtain rfl : 0 = i := Option.some.inj ((if_pos hx).symm.trans h)
        exact ⟨[], s, by rw [hx]; rfl, lastIndexOf_eq_none_iff.mp hs, rfl⟩
      · exact absurd ((if_neg hx).symm.trans h).symm (Option.some_ne_none i)

/-- What a parsed call id looks like: a run id that is not empty, a hyphen, and an index behind the last one. -/
theorem parseMirrorCallId_eq_some_iff {callId runId : JsString} {n : ℕ} :
    parseMirrorCallId callId = some (runId, n) ↔ runId ≠ [] ∧ ∃ index,
      callId = AGY_CALL_PREFIX ++ (runId ++ 0x2D :: index) ∧ 0x2D ∉ index ∧ (stringToNumber index).safeNat? = some n := by
  unfold parseMirrorCallId
  constructor
  · intro h
    cases hpre : AGY_CALL_PREFIX.isPrefixOf callId with
    | false =>
      rw [hpre] at h
      exact absurd h.symm (Option.some_ne_none _)
    | true =>
      obtain ⟨rest, rfl⟩ := List.isPrefixOf_iff_prefix.mp hpre
      simp only [hpre, List.drop_left, Bool.not_true, Bool.false_eq_true, if_false] at h
      cases hlast : lastIndexOf 0x2D rest with
      | none =>
        rw [hlast] at h
        exact absurd h.symm (Option.some_ne_none _)
      | some i =>
        obtain ⟨run, index, rfl, hindex, rfl⟩ := eq_append_of_lastIndexOf hlast
        rw [hlast] at h
        cases run with
        | nil => exact absurd h.symm (Option.some_ne_none _)
        | cons c run =>
          obtain ⟨n', hn, hpair⟩ := Option.map_eq_some_iff.mp h
          have hdrop : (c :: run ++ 0x2D :: index).drop (run.length + 2) = index := by
            rw [List.append_cons, List.drop_left' (by simp)]
          have htake : (c :: run ++ 0x2D :: index).take (run.length + 1) = c :: run := List.take_left' rfl
          rw [hdrop] at hn
          rw [htake] at hpair
          obtain ⟨rfl, rfl⟩ := Prod.mk.inj hpair
          exact ⟨List.cons_ne_nil c run, index, rfl, hindex, hn⟩
  · rintro ⟨hrun, index, rfl, hindex, hn⟩
    have hpre : AGY_CALL_PREFIX.isPrefixOf (AGY_CALL_PREFIX ++ (runId ++ 0x2D :: index)) = true :=
      List.isPrefixOf_iff_prefix.mpr (List.prefix_append _ _)
    obtain ⟨k, hk⟩ : ∃ k, runId.length = k + 1 :=
      Nat.exists_eq_succ_of_ne_zero fun h => hrun (List.length_eq_zero_iff.mp h)
    have hdrop : (runId ++ 0x2D :: index).drop (k + 2) = index := by
      rw [List.append_cons, List.drop_left' (by simp [hk])]
    have htake : (runId ++ 0x2D :: index).take (k + 1) = runId := List.take_left' hk
    rw [hpre, List.drop_left]
    simp only [Bool.not_true, Bool.false_eq_true, if_false, lastIndexOf_append _ _ hindex, hk]
    rw [hdrop, htake, hn]
    rfl

theorem mirrorCallId_eq (runId : RunId) (i : ℕ) :
    mirrorCallId runId i = AGY_CALL_PREFIX ++ (runId.val ++ 0x2D :: natDigits i) := by
  simp [mirrorCallId, show js "-" = [0x2D] from rfl]

/-- **A call id parses back** to the run and the event index it was minted from. -/
theorem parse_mirrorCallId (runId : RunId) {i : ℕ} (hi : i < 2 ^ 53) :
    parseMirrorCallId (mirrorCallId runId i) = some (runId.val, i) := by
  have hnot : (0x2D : UInt16) ∉ natDigits i := fun h => by
    have := allDigits_natDigits i _ h
    cases this
  refine parseMirrorCallId_eq_some_iff.mpr ⟨runId.nonempty, natDigits i, mirrorCallId_eq runId i, hnot, ?_⟩
  rw [stringToNumber_natDigits hi, safeNat?_natCast hi]

end CallIds

/-! ### The log -/

section Log

/-- Behind the cap only results are stored. -/
def Capped (events : List AgyEvent) : Prop :=
  ∀ i ev, events[i]? = some ev → ev.isResult = false → i < MAX_EVENTS_PER_RUN

theorem capped_of_length {events : List AgyEvent} (h : events.length ≤ MAX_EVENTS_PER_RUN) : Capped events :=
  fun _ _ hi _ => lt_of_lt_of_le (List.getElem?_eq_some_iff.mp hi).1 h

theorem capped_nil : Capped [] := capped_of_length (Nat.zero_le _)

theorem Capped.concat {events : List AgyEvent} (h : Capped events) {ev : AgyEvent}
    (hev : ev.isResult = false → events.length < MAX_EVENTS_PER_RUN) : Capped (events ++ [ev]) := by
  intro i ev' hi hr
  rcases Nat.lt_trichotomy i events.length with hlt | rfl | hgt
  · rw [List.getElem?_append_left hlt] at hi
    exact h i ev' hi hr
  · rw [List.getElem?_concat_length] at hi
    obtain rfl := Option.some.inj hi
    exact hev hr
  · rw [List.getElem?_eq_none (by simp; omega)] at hi
    cases hi

namespace RunRecording

variable (rec : RunRecording)

@[simp] theorem noteEvent_events (ev : AgyEvent) : (rec.noteEvent ev).events = rec.events := by
  unfold noteEvent
  split
  · rfl
  · split <;> rfl

@[simp] theorem noteEvent_runId (ev : AgyEvent) : (rec.noteEvent ev).runId = rec.runId := by
  unfold noteEvent
  split
  · rfl
  · split <;> rfl

@[simp] theorem noteEvent_settled (ev : AgyEvent) : (rec.noteEvent ev).settled = rec.settled := by
  unfold noteEvent
  split
  · rfl
  · split <;> rfl

@[simp] theorem noteEvent_failure (ev : AgyEvent) : (rec.noteEvent ev).failure = rec.failure := by
  unfold noteEvent
  split
  · rfl
  · split <;> rfl

@[simp] theorem noteEvent_keep (ev : AgyEvent) :
    (rec.noteEvent ev).keepForContinuation = rec.keepForContinuation := by
  unfold noteEvent
  split
  · rfl
  · split <;> rfl

/-- The events an append stores: the event, or none past the cap. -/
def stored (ev : AgyEvent) : List AgyEvent :=
  if !ev.isResult && MAX_EVENTS_PER_RUN ≤ rec.events.length then [] else [ev]

variable {rec}

theorem append_events (h : rec.settled = false) (ev : AgyEvent) :
    (rec.append ev).events = rec.events ++ rec.stored ev := by
  unfold append stored
  rw [h]
  simp only [Bool.false_eq_true, if_false, noteEvent_events]
  split_ifs
  · simp
  · simp

theorem append_other (h : rec.settled = false) (ev : AgyEvent) :
    (rec.append ev).runId = rec.runId ∧ (rec.append ev).settled = false ∧
      (rec.append ev).failure = rec.failure ∧
      (rec.append ev).keepForContinuation = rec.keepForContinuation := by
  unfold append
  rw [h]
  simp only [Bool.false_eq_true, if_false, noteEvent_events]
  split_ifs
  · simp [h]
  · simp [h]

theorem append_capped (h : Capped rec.events) (ev : AgyEvent) : Capped (rec.append ev).events := by
  cases hs : rec.settled with
  | true =>
    have : rec.append ev = rec := if_pos hs
    rwa [this]
  | false =>
    rw [append_events hs, stored]
    split_ifs with hc
    · rwa [List.append_nil]
    · refine h.concat fun hr => ?_
      simpa [hr] using hc

end RunRecording

end Log

end AgyProxy

import AgyProxy.Host.RecordingSpec

/-!
# AgyProxy.Host.CallIdSpec — which call ids the gateway takes for its own

* `CallIdRoundTrip`: a string parses to a cursor exactly when it was minted from it, and else not at all.
* `LenientCallId`: the text behind the last hyphen is no numeral, yet `Number` reads an index from it.
* `callId_roundTrip_iff`: **the round trip fails on the lenient ids and on no others**.
-/

namespace AgyProxy

open Js

section CallIdSpec

variable {callId : JsString}

structure CallIdRoundTrip (callId : JsString) : Prop where
  minted : ∀ (runId : RunId) (n : ℕ), n < 2 ^ 53 →
    (parseMirrorCallId callId = some (runId.val, n) ↔ callId = mirrorCallId runId n)
  rejected : (∀ (runId : RunId) (n : ℕ), n < 2 ^ 53 → callId ≠ mirrorCallId runId n) → parseMirrorCallId callId = none

/-- An index that is not the numeral of the number it reads as: empty, padded, signed, with leading zeros, a
fraction, an exponent or a radix. -/
def LenientCallId (callId : JsString) : Prop :=
  ∃ (runId : RunId) (index : JsString) (n : ℕ), callId = AGY_CALL_PREFIX ++ (runId.val ++ 0x2D :: index) ∧
    0x2D ∉ index ∧ (stringToNumber index).safeNat? = some n ∧ index ≠ natDigits n

theorem safeNat?_lt {x : Js.Num} {n : ℕ} (h : x.safeNat? = some n) : n < 2 ^ 53 := by
  cases x with
  | fin q =>
    unfold Js.Num.safeNat? at h
    dsimp only at h
    split at h
    · rename_i hq
      obtain rfl : q.num.toNat = n := Option.some.inj h
      omega
    · exact absurd h.symm (Option.some_ne_none n)
  | inf neg => exact absurd h.symm (Option.some_ne_none n)
  | nan => exact absurd h.symm (Option.some_ne_none n)

/-- An id that is not lenient and parses was minted. -/
theorem eq_mirrorCallId (h : ¬ LenientCallId callId) {runId : RunId} {n : ℕ}
    (hparse : parseMirrorCallId callId = some (runId.val, n)) : callId = mirrorCallId runId n := by
  obtain ⟨-, index, hid, hindex, hn⟩ := parseMirrorCallId_eq_some_iff.mp hparse
  have hnum : index = natDigits n := by
    by_contra hne
    exact h ⟨runId, index, n, hid, hindex, hn, hne⟩
  rw [hid, hnum, mirrorCallId_eq]

/-- **The exact round trip**: ids whose index is lenient are the ones taken for a cursor without having been
minted. -/
theorem callId_roundTrip_iff (callId : JsString) : CallIdRoundTrip callId ↔ ¬ LenientCallId callId := by
  constructor
  · rintro hround ⟨runId, index, n, hid, hindex, hn, hne⟩
    have hparse : parseMirrorCallId callId = some (runId.val, n) :=
      parseMirrorCallId_eq_some_iff.mpr ⟨runId.nonempty, index, hid, hindex, hn⟩
    have hmint := (hround.minted runId n (safeNat?_lt hn)).mp hparse
    rw [hid, mirrorCallId_eq] at hmint
    have htail := List.append_cancel_left (List.append_cancel_left hmint)
    exact hne (List.cons.inj htail).2
  · intro hstrict
    refine ⟨fun runId n hn => ⟨eq_mirrorCallId hstrict, ?_⟩, fun hnone => ?_⟩
    · rintro rfl
      exact parse_mirrorCallId runId hn
    · cases hparse : parseMirrorCallId callId with
      | none => rfl
      | some cursor =>
        obtain ⟨hrun, index, -, -, hn⟩ := parseMirrorCallId_eq_some_iff.mp hparse
        have hmint : callId = mirrorCallId ⟨cursor.1, hrun⟩ cursor.2 := eq_mirrorCallId hstrict hparse
        exact absurd hmint (hnone ⟨cursor.1, hrun⟩ cursor.2 (safeNat?_lt hn))

/-- The empty index is read as zero. -/
theorem not_callIdRoundTrip_blank : ¬ CallIdRoundTrip (js "agytc-run-") := by
  intro hround
  have hmint := (hround.minted ⟨js "run", by decide⟩ 0 (by decide)).mp (by decide +kernel)
  exact absurd hmint (by decide +kernel)

end CallIdSpec

end AgyProxy

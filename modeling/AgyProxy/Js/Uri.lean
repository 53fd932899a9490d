import AgyProxy.Js.Json

/-!
# AgyProxy.Js.Uri — `decodeURIComponent`

* `escapes`: the text with its `%XX` read as bytes; `units`: the bytes read as UTF-8.
* `decodeURIComponent_plain`: a text without `%` stays as it is.
-/

namespace AgyProxy.Js

/-- The units as they stand and the bytes of the escapes; no result for a broken escape. -/
def escapes : JsString → Option (List (UInt16 ⊕ ℕ))
  | [] => some []
  | c :: rest =>
    if c = 0x25 then
      match rest with
      | h :: l :: rest => do
        let hi ← JsonParser.hexDigit? h
        let lo ← JsonParser.hexDigit? l
        return .inr (16 * hi.toNat + lo.toNat) :: (← escapes rest)
      | _ => none
    else (escapes rest).map (.inl c :: ·)

/-- The first byte of a code point: how many follow, and the bits it brings. -/
def utf8Lead (b : ℕ) : Option (ℕ × ℕ) :=
  if b < 0x80 then some (0, b)
  else if b < 0xC0 then none
  else if b < 0xE0 then some (1, b - 0xC0)
  else if b < 0xF0 then some (2, b - 0xE0)
  else if b < 0xF8 then some (3, b - 0xF0)
  else none

/-- Whether a code point needs as many further bytes, and is one. -/
def utf8Valid (following value : ℕ) : Bool :=
  match following with
  | 0 => true
  | 1 => 0x80 ≤ value
  | 2 => 0x800 ≤ value && !(0xD800 ≤ value && value ≤ 0xDFFF)
  | _ => 0x10000 ≤ value && value ≤ 0x10FFFF

/-- The text of units and bytes, `need` of the `following` bytes of a code point still to come. -/
def units (following need value : ℕ) : List (UInt16 ⊕ ℕ) → Option JsString
  | [] => if need = 0 then some [] else none
  | .inl c :: rest => if need = 0 then (units 0 0 0 rest).map (c :: ·) else none
  | .inr b :: rest =>
    if need = 0 then
      (utf8Lead b).bind fun (following, value) =>
        if following = 0 then (units 0 0 0 rest).map (utf16 (Char.ofNat value) ++ ·)
        else units following following value rest
    else if 0x80 ≤ b ∧ b < 0xC0 then
      let value := value * 64 + (b - 0x80)
      if need = 1 then
        if utf8Valid following value = true then (units 0 0 0 rest).map (utf16 (Char.ofNat value) ++ ·) else none
      else units following (need - 1) value rest
    else none

/-- `decodeURIComponent(s)`, which throws when there is no result. -/
def decodeURIComponent (s : JsString) : Option JsString := (escapes s).bind (units 0 0 0)

example : decodeURIComponent (js "a%2Db%E4%BD%A0%F0%9F%98%80") = some (js "a-b你😀") ∧
    decodeURIComponent (js "%") = none ∧ decodeURIComponent (js "%C0%80") = none ∧
    decodeURIComponent (js "%E4%BD") = none ∧ decodeURIComponent (js "%ED%A0%80") = none := by decide +kernel

theorem escapes_cons {c : UInt16} (hc : c ≠ 0x25) :
    ∀ rest : JsString, escapes (c :: rest) = (escapes rest).map (.inl c :: ·)
  | [] | [_] => by simp [escapes, hc]
  | _ :: _ :: _ => by rw [escapes, if_neg hc]

theorem escapes_plain : ∀ {s : JsString}, 0x25 ∉ s → escapes s = some (s.map .inl)
  | [], _ => by simp [escapes]
  | c :: s, h => by
    have hc : c ≠ 0x25 := fun heq => h (heq ▸ List.mem_cons_self)
    rw [escapes_cons hc, escapes_plain fun hmem => h (List.mem_cons_of_mem c hmem)]
    rfl

theorem units_plain : ∀ s : JsString, units 0 0 0 (s.map .inl) = some s
  | [] => rfl
  | c :: s => by
    rw [List.map_cons, units, if_pos rfl, units_plain s]
    rfl

/-- **A text without `%`** stays as it is. -/
theorem decodeURIComponent_plain {s : JsString} (h : 0x25 ∉ s) : decodeURIComponent s = some s := by
  unfold decodeURIComponent
  rw [escapes_plain h]
  exact units_plain s

end AgyProxy.Js

import Mathlib.Data.List.Basic
import Mathlib.Data.List.DropRight

/-!
# AgyProxy.Js.Str — JavaScript strings as UTF-16 code units

A JavaScript string is a sequence of 16-bit code units; lone surrogates are legal.  `js` gives the
string of a Lean literal.  Only what the standard library promises about code units is used here:
`trim`, the two ASCII case foldings and the decimal digits of a natural number.
-/

namespace AgyProxy.Js

/-- A JavaScript string: its UTF-16 code units. -/
abbrev JsString := List UInt16

instance : LawfulBEq JsString := inferInstanceAs (LawfulBEq (List UInt16))

/-- The code units of one code point (a surrogate pair above the BMP). -/
def utf16 (c : Char) : JsString :=
  if c.toNat < 0x10000 then [UInt16.ofNat c.toNat]
  else [UInt16.ofNat (0xD800 + (c.toNat - 0x10000) / 0x400),
        UInt16.ofNat (0xDC00 + (c.toNat - 0x10000) % 0x400)]

/-- The JavaScript string of a literal. -/
def js (s : String) : JsString := s.toList.flatMap utf16

/-- What holds of every unit of a text, read off the text. -/
theorem forall_units {p : UInt16 → Prop} [DecidablePred p] {s : JsString}
    (h : (s.all fun u => decide (p u)) = true) : ∀ u ∈ s, p u :=
  fun u hu => of_decide_eq_true (List.all_eq_true.mp h u hu)

/-- ECMAScript WhiteSpace and LineTerminator, the class `\s` and what `trim` removes. -/
def isWhiteSpace (c : UInt16) : Bool :=
  (0x09 ≤ c && c ≤ 0x0D) || c == 0x20 || c == 0xA0 || c == 0x1680 || (0x2000 ≤ c && c ≤ 0x200A) ||
  c == 0x2028 || c == 0x2029 || c == 0x202F || c == 0x205F || c == 0x3000 || c == 0xFEFF

/-- The characters the regex dot does not match. -/
def isLineTerminator (c : UInt16) : Bool :=
  c == 0x0A || c == 0x0D || c == 0x2028 || c == 0x2029

/-- `[A-Za-z0-9_]`, the class behind `\b`. -/
def isWordChar (c : UInt16) : Bool :=
  (0x41 ≤ c && c ≤ 0x5A) || (0x61 ≤ c && c ≤ 0x7A) || (0x30 ≤ c && c ≤ 0x39) || c == 0x5F

def isDigit (c : UInt16) : Bool := 0x30 ≤ c && c ≤ 0x39

/-- `String.prototype.trim`. -/
def trim (s : JsString) : JsString := (s.dropWhile isWhiteSpace).rdropWhile isWhiteSpace

/-- The lower case of a code unit, as far as it is ASCII: besides `A`–`Z` only the Kelvin sign has an
ASCII lower case.  Every use compares the result with ASCII words. -/
def lowerUnit (c : UInt16) : UInt16 :=
  if 0x41 ≤ c && c ≤ 0x5A then c + 0x20 else if c == 0x212A then 0x6B else c

/-- `toLowerCase`, exact for membership in a vocabulary of ASCII words. -/
def toLowerCase (s : JsString) : JsString := s.map lowerUnit

/-- The `Canonicalize` of a case-insensitive regex without the `u` flag: ASCII letters fold onto each
other and nothing outside ASCII folds onto ASCII. -/
def upperUnit (c : UInt16) : UInt16 := if 0x61 ≤ c && c ≤ 0x7A then c - 0x20 else c

/-- `toUpperCase`, exact for comparisons with words in `E`, `R`, `O` (no other character has such an
upper case). -/
def toUpperCase (s : JsString) : JsString := s.map upperUnit

/-- The decimal digits of a natural number, `String(n)` for `n < 1e21`. -/
def natDigits (n : ℕ) : JsString := (Nat.toDigits 10 n).map fun c => UInt16.ofNat c.toNat

/-- `String(z)` for an integer of magnitude below `1e21`. -/
def intDigits (z : ℤ) : JsString := if z < 0 then js "-" ++ natDigits z.natAbs else natDigits z.natAbs

/-- `lastIndexOf` of a single code unit. -/
def lastIndexOf (c : UInt16) : JsString → Option ℕ
  | [] => none
  | x :: s =>
    match lastIndexOf c s with
    | some i => some (i + 1)
    | none => if x = c then some 0 else none

end AgyProxy.Js

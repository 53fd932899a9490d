import AgyProxy.Js.Str
import Mathlib.Data.Rat.Floor
import Mathlib.Data.Nat.Log

/-!
# AgyProxy.Js.Number — JavaScript numbers by their exact values

A number is an IEEE double given by its exact rational value, an infinity or NaN (the two zeros are
not told apart: no operation modelled here can).  `roundToDouble` is round-to-nearest, ties to even;
`stringToNumber` is `Number(s)` and `numberToString` is `String(x)`.
-/

namespace AgyProxy.Js

inductive Num
  | fin (q : ℚ)
  | inf (neg : Bool)
  | nan
deriving DecidableEq

/-- Nearest integer to a non-negative rational, ties to even. -/
def roundHalfEven (q : ℚ) : ℕ :=
  let n := q.floor.toNat
  let r := q - n
  if r < 1 / 2 then n else if 1 / 2 < r then n + 1 else if n % 2 = 0 then n else n + 1

/-- The exponent of the last mantissa bit of a positive rational: its binary order of magnitude
less 52, at least the subnormal `-1074`. -/
def doubleExp (q : ℚ) : ℤ :=
  let e : ℤ := (Nat.log2 q.num.toNat : ℤ) - Nat.log2 q.den
  let e := if q < (2 : ℚ) ^ e then e - 1 else e
  max (e - 52) (-1074)

/-- The double nearest to a rational. -/
def roundToDouble (q : ℚ) : Num :=
  if q = 0 then .fin 0 else
  let a := |q|
  let e := doubleExp a
  let v : ℚ := roundHalfEven (a / (2 : ℚ) ^ e) * (2 : ℚ) ^ e
  if (2 : ℚ) ^ (1024 : ℤ) ≤ v then .inf (q < 0) else .fin (if q < 0 then -v else v)

/-- The double nearest to `m * 10 ^ e`, without computing powers that over- or underflow anyway. -/
def decimalToNum (neg : Bool) (m : ℕ) (e : ℤ) : Num :=
  let digits : ℤ := (Nat.log 10 m : ℤ) + 1
  if m = 0 then .fin 0
  else if 310 < digits + e then .inf neg
  else if digits + e < -330 then .fin 0
  else roundToDouble ((if neg then -1 else 1) * m * (10 : ℚ) ^ e)

/-- Value of a digit string in a radix up to 36, `none` at a foreign digit. -/
def digitsValue (radix : ℕ) : ℕ → JsString → Option ℕ
  | acc, [] => some acc
  | acc, c :: s =>
    let d := if isDigit c then c.toNat - 0x30
      else if 0x61 ≤ lowerUnit c && c < 0x80 then (lowerUnit c).toNat - 0x61 + 10 else 36
    if d < radix then digitsValue radix (acc * radix + d) s else none

/-- Split off an exponent part `e±d…`; `none` when the text after `e` is not one. -/
def splitExponent (s : JsString) : Option (JsString × ℤ) :=
  let mant := s.takeWhile fun c => c != 0x65 && c != 0x45
  match s.drop mant.length with
  | [] => some (mant, 0)
  | _ :: t =>
    let neg := t.head? == some 0x2D
    let ds := if neg || t.head? == some 0x2B then t.drop 1 else t
    if ds.isEmpty then none
    else (digitsValue 10 0 ds).map fun n => (mant, if neg then -(n : ℤ) else n)

/-- An unsigned decimal literal `d*.d*e±d` with at least one mantissa digit. -/
def decimalLiteral (neg : Bool) (s : JsString) : Option Num := do
  let (mant, e) ← splitExponent s
  let ip := mant.takeWhile (· != 0x2E)
  let fp := (mant.drop ip.length).drop 1
  if ip.isEmpty && fp.isEmpty then none
  else
    let m ← digitsValue 10 0 (ip ++ fp)
    some (decimalToNum neg m (e - fp.length))

/-- The radix of a literal `0x`, `0o` or `0b`, zero for any other letter. -/
def radixOf (c : UInt16) : ℕ :=
  if lowerUnit c = 0x78 then 16 else if lowerUnit c = 0x6F then 8 else if lowerUnit c = 0x62 then 2 else 0

/-- The numeric literals `Number` accepts besides decimals. -/
def radixLiteral : JsString → Option Num
  | 0x30 :: c :: d :: s => (digitsValue (radixOf c) 0 (d :: s)).map fun (n : ℕ) => roundToDouble n
  | _ => none

/-- `Number(s)`: surrounding white space is ignored, the empty string is `0`, anything that is not a
numeric literal is NaN. -/
def stringToNumber (s : JsString) : Num :=
  let t := trim s
  if t.isEmpty then .fin 0
  else
    let neg := t.head? == some 0x2D
    let u := if neg || t.head? == some 0x2B then t.drop 1 else t
    if u = js "Infinity" then .inf neg
    else ((radixLiteral t).or (decimalLiteral neg u)).getD .nan

/-- `Number.isSafeInteger(x)` together with `x >= 0`, as the natural number it then is. -/
def Num.safeNat? : Num → Option ℕ
  | .fin q => if q.den = 1 ∧ 0 ≤ q.num ∧ q.num < 2 ^ 53 then some q.num.toNat else none
  | _ => none

/-- The shortest decimal `s * 10 ^ (n - k)` that rounds back to a positive double, `k` digits long;
the fuel counts the remaining digit lengths (17 always suffice). -/
def shortestDigits (q : ℚ) (n : ℤ) : ℕ → ℕ → ℕ × ℕ
  | 0, k => (roundHalfEven (q / (10 : ℚ) ^ (n - k)), k)
  | fuel + 1, k =>
    let s := roundHalfEven (q / (10 : ℚ) ^ (n - k))
    if roundToDouble (s * (10 : ℚ) ^ (n - k)) = .fin q then (s, k) else shortestDigits q n fuel (k + 1)

/-- `Number::toString` of a positive finite double. -/
def positiveToString (q : ℚ) : JsString :=
  let n : ℤ := if 1 ≤ q then (Nat.log 10 q.floor.toNat : ℤ) + 1
    else -(Nat.clog 10 ((1 / q).ceil.toNat + 1) : ℤ) + 1
  let n := if (10 : ℚ) ^ n ≤ q then n + 1 else if q < (10 : ℚ) ^ (n - 1) then n - 1 else n
  let (s, k) := shortestDigits q n 17 1
  -- a value just below a power of ten can round up to it
  let (s, n) := if s = 10 ^ k then (1, n + 1) else (s, n)
  let ds := natDigits s
  let zeros (m : ℤ) := List.replicate m.toNat (0x30 : UInt16)
  if (k : ℤ) ≤ n ∧ n ≤ 21 then ds ++ zeros (n - k)
  else if 0 < n ∧ n ≤ 21 then ds.take n.toNat ++ js "." ++ ds.drop n.toNat
  else if -6 < n ∧ n ≤ 0 then js "0." ++ zeros (-n) ++ ds
  else
    let e := n - 1
    let mant := if k = 1 then ds else ds.take 1 ++ js "." ++ ds.drop 1
    mant ++ js "e" ++ (if 0 ≤ e then js "+" else []) ++ intDigits e

/-- `String(x)`. -/
def numberToString : Num → JsString
  | .fin q =>
    if q.den = 1 ∧ |q| ≤ 2 ^ 53 then intDigits q.num
    else if q < 0 then js "-" ++ positiveToString (-q) else positiveToString q
  | .inf neg => if neg then js "-Infinity" else js "Infinity"
  | .nan => js "NaN"

end AgyProxy.Js

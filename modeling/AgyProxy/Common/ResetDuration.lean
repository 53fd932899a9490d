import AgyProxy.Js.Number
import AgyProxy.Js.Regex

/-!
# AgyProxy.Common.ResetDuration — the wait an error text announces (`src/common/types.ts`)

* `Num.add`, `Num.mul`: sums and products of doubles.
* `unitCount`: one component of the compact form, `(?:(\d+)\s*h)?`.
* `compactMs`, `wordMs`, `isoMs`: the three formats; `parseResetDurationMs` tries them in this order.

`Date.parse` is a parameter, with `none` for NaN; the clock shows whole milliseconds.
-/

namespace AgyProxy

namespace Js.Num

def add : Num → Num → Num
  | .fin a, .fin b => roundToDouble (a + b)
  | .nan, _ | _, .nan => .nan
  | .inf m, .inf n => if m = n then .inf m else .nan
  | .inf m, .fin _ | .fin _, .inf m => .inf m

def isNegative : Num → Bool
  | .fin a => a < 0
  | .inf neg => neg
  | .nan => false

def mul : Num → Num → Num
  | .fin a, .fin b => roundToDouble (a * b)
  | .nan, _ | _, .nan => .nan
  | a, b => if a = .fin 0 ∨ b = .fin 0 then .nan else .inf (a.isNegative != b.isNegative)

/-- `x > 0`. -/
def isPositive : Num → Bool
  | .fin a => 0 < a
  | .inf neg => !neg
  | .nan => false

end Js.Num

open Js

/-- `parseInt` of a string of digits; a group that took no part counts as `'0'`. -/
def parseDigits (digits : Option JsString) : Js.Num :=
  match digitsValue 10 0 (digits.getD (js "0")) with
  | some n => roundToDouble n
  | none => .nan

/-- `(?:(\d+)\s*h)?` at the start of a text, for the letter given in upper case: the group, and what follows. -/
def unitCount (letter : UInt16) (s : JsString) : Option JsString × JsString :=
  let digits := s.takeWhile isDigit
  match (s.drop digits.length).dropWhile isWhiteSpace with
  | [] => (none, s)
  | c :: rest => if digits ≠ [] ∧ upperUnit c = letter then (some digits, rest) else (none, s)

open Rx in
/-- `/resets?\s+in\s+/i`, what stands before the components; they may all be empty. -/
def compactRx : Rx :=
  seqs (litI (js "reset")) [opt (litI (js "s")), many isWhiteSpace 1, litI (js "in"), many isWhiteSpace 1]

def compactMs (text : JsString) : Option Js.Num :=
  match compactRx.exec text with
  | none => none
  | some m =>
    let hours := unitCount 0x48 m.after
    let minutes := unitCount 0x4D (hours.2.dropWhile isWhiteSpace)
    let seconds := unitCount 0x53 (minutes.2.dropWhile isWhiteSpace)
    let totalMs := ((((parseDigits hours.1).mul (.fin 3600)).add ((parseDigits minutes.1).mul (.fin 60))).add
      (parseDigits seconds.1)).mul (.fin 1000)
    -- a blank group counts nothing, so its total is not positive either
    if totalMs.isPositive then some totalMs else none

open Rx in
/-- `/(?:resets?|retry)\s+(?:in|after)\s+(\d+)\s*(hour|hr|minute|min|second|sec)s?/i`. -/
def wordRx : Rx :=
  seqs (alt (seq (litI (js "reset")) (opt (litI (js "s")))) (litI (js "retry")))
    [many isWhiteSpace 1, alt (litI (js "in")) (litI (js "after")), many isWhiteSpace 1, many isDigit 1,
      many isWhiteSpace 0,
      alts ([js "hour", js "hr", js "minute", js "min", js "second", js "sec"].map litI), opt (litI (js "s"))]

def wordMs (text : JsString) : Option Js.Num :=
  match wordRx.exec text with
  | none => none
  | some m =>
    let counted := m.matched.dropWhile fun c => !isDigit c
    let num := parseDigits (some (counted.takeWhile isDigit))
    -- the unit is told by its first letter
    match (((counted.dropWhile isDigit).dropWhile isWhiteSpace).head?).map upperUnit with
    | some 0x48 => some ((num.mul (.fin 3600)).mul (.fin 1000))
    | some 0x4D => some ((num.mul (.fin 60)).mul (.fin 1000))
    | some 0x53 => some (num.mul (.fin 1000))
    | _ => none

open Rx in
/-- `\d{n}`. -/
def digitsRx (n : ℕ) : Rx := seqs (lit []) (List.replicate n (cls isDigit))

open Rx in
/-- `/\d{4}-\d{2}-\d{2}T\d{2}:\d{2}:\d{2}(?:\.\d+)?(?:Z|[+-]\d{2}:\d{2})/`. -/
def isoRx : Rx :=
  let sign := cls fun c => c == 0x2B || c == 0x2D
  seqs (digitsRx 4) [lit (js "-"), digitsRx 2, lit (js "-"), digitsRx 2, lit (js "T"), digitsRx 2, lit (js ":"),
    digitsRx 2, lit (js ":"), digitsRx 2, opt (seq (lit (js ".")) (many isDigit 1)),
    alt (lit (js "Z")) (seqs sign [digitsRx 2, lit (js ":"), digitsRx 2])]

section Date

variable (dateParse : JsString → Option ℤ)

def isoMs (now : ℕ) (text : JsString) : Option Js.Num :=
  (isoRx.exec text).bind fun m =>
    (dateParse m.matched).bind fun parsed => if (now : ℤ) < parsed then some (.fin (parsed - now)) else none

def parseResetDurationMs (now : ℕ) (text : JsString) : Option Js.Num :=
  if text.isEmpty then none else (compactMs text).or ((wordMs text).or (isoMs dateParse now text))

end Date

end AgyProxy

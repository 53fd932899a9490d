import AgyProxy.Js.Str

/-!
# AgyProxy.Js.Regex — ordered backtracking regular expressions on code units

The fragment of JavaScript regular expressions without captures, matched the way the language
specifies it: `Rx.run` lists the ends of all matches at a position in the order backtracking tries
them, and `exec` takes the first match at the leftmost position that has one.
-/

namespace AgyProxy.Js

inductive Rx
  | lit (s : JsString)
  /-- a literal under the flag `i` -/
  | litI (s : JsString)
  | cls (p : UInt16 → Bool)
  /-- greedy repetition of a class, at least `min` times -/
  | many (p : UInt16 → Bool) (min : ℕ)
  | seq (a b : Rx)
  | alt (a b : Rx)
  | opt (a : Rx)
  | wordBoundary
  | fail

namespace Rx

/-- A position in the subject: the code unit before it and the rest after it. -/
abbrev Pos := Option UInt16 × JsString

def isWordAt (c : Option UInt16) : Bool := c.any isWordChar

/-- The position `k` code units further. -/
def advance (k : ℕ) (p : Pos) : Pos := (if k = 0 then p.1 else p.2[k - 1]?, p.2.drop k)

/-- The ends of the matches at a position, in the order backtracking finds them. -/
def run : Rx → Pos → List Pos
  | lit s, p => if s.isPrefixOf p.2 then [advance s.length p] else []
  | litI s, p =>
    if (s.map upperUnit).isPrefixOf (p.2.map upperUnit) then [advance s.length p] else []
  | cls c, p => if p.2.head?.any c then [advance 1 p] else []
  | many c min, p =>
    ((List.range ((p.2.takeWhile c).length + 1)).filter (min ≤ ·)).reverse.map (advance · p)
  | seq a b, p => (run a p).flatMap (run b)
  | alt a b, p => run a p ++ run b p
  | opt a, p => run a p ++ [p]
  | wordBoundary, p => if isWordAt p.1 != isWordAt p.2.head? then [p] else []
  | fail, _ => []

/-- Alternation of a list of expressions. -/
def alts (rs : List Rx) : Rx := rs.foldr alt fail

/-- Sequence of a list of expressions (the last one closes the sequence). -/
def seqs (r : Rx) (rs : List Rx) : Rx := rs.foldl seq r

/-- A match: what stands before it, what it consumed, what follows it. -/
structure Match where
  before : JsString
  matched : JsString
  after : JsString

/-- Leftmost match at or after a position. -/
def execAt (r : Rx) (prev : Option UInt16) : JsString → Option Match
  | [] => (run r (prev, [])).head?.map fun q => ⟨[], [], q.2⟩
  | c :: s =>
    match (run r (prev, c :: s)).head? with
    | some q => some ⟨[], (c :: s).take ((c :: s).length - q.2.length), q.2⟩
    | none => (execAt r (some c) s).map fun m => { m with before := c :: m.before }

/-- `s.match(r)` for a regex without the flag `g`. -/
def exec (r : Rx) (s : JsString) : Option Match := execAt r none s

/-- `r.test(s)`. -/
def test (r : Rx) (s : JsString) : Bool := (exec r s).isSome

/-- `s.replace(r, rep)` under the flag `g`, for a regex that never matches the empty string; the
fuel is the number of replacements left. -/
def replaceFrom (r : Rx) (rep : JsString) : ℕ → Option UInt16 → JsString → JsString
  | 0, _, s => s
  | n + 1, prev, s =>
    match execAt r prev s with
    | none => s
    | some m => m.before ++ rep ++ replaceFrom r rep n m.matched.getLast? m.after

def replaceAll (r : Rx) (rep s : JsString) : JsString := replaceFrom r rep (s.length + 1) none s

end Rx

end AgyProxy.Js

import AgyProxy.Js.Number

/-!
# AgyProxy.Js.Json — JSON values, `JSON.parse`, `JSON.stringify`, `String(v)`

An object is the sequence of its property definitions; a later definition overrides an earlier one,
as `CreateDataProperty` does.  Hence a spread is an append and a duplicate member in a JSON text
needs no special case.  `JSON.parse` is the RFC 8259 grammar with a fuel that bounds the nesting of
its calls; it fails on every text that is not one JSON value.
-/

namespace AgyProxy.Js

inductive Json
  | null
  | bool (b : Bool)
  | num (x : Num)
  | str (s : JsString)
  | arr (elems : List Json)
  | obj (fields : List (JsString × Json))

/-- The property definitions of an object, in order. -/
abbrev Obj := List (JsString × Json)

/-- What the language throws where the modelled code can make it throw. -/
inductive JsError
  /-- the call stack is exhausted -/
  | rangeError
  /-- an object has no primitive value -/
  | typeError
deriving DecidableEq

/-- `String(err)`. -/
def JsError.toJsString : JsError → JsString
  | rangeError => js "RangeError: Maximum call stack size exceeded"
  | typeError => js "TypeError: Cannot convert object to primitive value"

namespace Obj

/-- `obj[k]`, `none` for `undefined`.  No key asked for is a name of `Object.prototype`. -/
def get? (o : Obj) (k : JsString) : Option Json := o.reverse.lookup k

@[simp] theorem get?_nil (k : JsString) : get? [] k = none := rfl

/-- Reading a spread `{ ...a, ...b }`: `b` wins. -/
theorem get?_append (a b : Obj) (k : JsString) :
    get? (a ++ b) k = (get? b k).or (get? a k) := by
  simp [get?, List.lookup_append]

@[simp] theorem get?_singleton (k k' : JsString) (v : Json) :
    get? [(k, v)] k' = if k' = k then some v else none := by
  by_cases h : k' = k
  · subst h; simp [get?]
  · have hb : (k' == k) = false := by simpa using h
    simp [get?, List.lookup_cons, h, hb]

end Obj

namespace Json

/-- `typeof v === 'object'` for a non-null value; the named properties read afterwards (an array has
none of the names looked up). -/
def asObject? : Json → Option Obj
  | obj o => some o
  | arr _ => some []
  | _ => none

/-- ToBoolean. -/
def truthy : Json → Bool
  | null => false
  | bool b => b
  | num (.fin q) => q != 0
  | num .nan => false
  | num (.inf _) => true
  | str s => !s.isEmpty
  | arr _ => true
  | obj _ => true

/-- `String(v)` of a parsed value.  An object with a property `toString` of its own (never callable:
it is JSON) has no primitive value; an array joins its elements, `null` as the empty string.  The first
argument is the call stack left: every nested array takes a frame. -/
def toJsString : ℕ → Json → Except JsError JsString
  | _, null => .ok (js "null")
  | _, bool b => .ok (if b then js "true" else js "false")
  | _, num x => .ok (numberToString x)
  | _, str s => .ok s
  | _, obj o =>
    if (Obj.get? o (js "toString")).isSome then .error .typeError else .ok (js "[object Object]")
  | 0, arr _ => .error .rangeError
  | stack + 1, arr es => joinElems stack es
where
  joinElems : ℕ → List Json → Except JsError JsString
    | _, [] => .ok []
    | stack, [e] => elem stack e
    | stack, e :: f :: es => do
      let s ← elem stack e
      let t ← joinElems stack (f :: es)
      return s ++ js "," ++ t
  elem : ℕ → Json → Except JsError JsString
    | _, null => .ok []
    | stack, v => toJsString stack v

/-- `String(v)` throws: an object with a property `toString`, arrays nested deeper than the call stack,
or an array holding such a value. -/
def noPrimitive : ℕ → Json → Bool
  | _, obj o => (Obj.get? o (js "toString")).isSome
  | 0, arr _ => true
  | stack + 1, arr es => anyElem stack es
  | _, _ => false
where
  anyElem : ℕ → List Json → Bool
    | _, [] => false
    | stack, e :: es => noPrimitive stack e || anyElem stack es

mutual

/-- `String(v)` throws exactly on the values without a primitive value. -/
theorem toJsString_isOk : ∀ (stack : ℕ) (v : Json),
    (∃ s, toJsString stack v = .ok s) ↔ noPrimitive stack v = false
  | _, null => by simp [toJsString, noPrimitive]
  | _, bool b => by simp [toJsString, noPrimitive]
  | _, num x => by simp [toJsString, noPrimitive]
  | _, str s => by simp [toJsString, noPrimitive]
  | _, obj o => by
    cases h : (Obj.get? o (js "toString")).isSome <;> simp [toJsString, noPrimitive, h]
  | 0, arr _ => by simp [toJsString, noPrimitive]
  | stack + 1, arr es => by
    rw [toJsString, noPrimitive]
    exact joinElems_isOk stack es

theorem joinElems_isOk : ∀ (stack : ℕ) (es : List Json),
    (∃ s, toJsString.joinElems stack es = .ok s) ↔ noPrimitive.anyElem stack es = false
  | _, [] => by simp [toJsString.joinElems, noPrimitive.anyElem]
  | stack, [e] => by
    rw [toJsString.joinElems, elem_isOk stack e]
    simp [noPrimitive.anyElem]
  | stack, e :: f :: es => by
    have he := elem_isOk stack e
    have hes := joinElems_isOk stack (f :: es)
    rw [toJsString.joinElems, noPrimitive.anyElem, Bool.or_eq_false_iff, ← he, ← hes]
    cases h1 : toJsString.elem stack e with
    | error x => simp [bind, Except.bind]
    | ok s =>
      cases h2 : toJsString.joinElems stack (f :: es) with
      | error x => simp [bind, Except.bind]
      | ok t => simp [bind, Except.bind, pure, Except.pure]

theorem elem_isOk : ∀ (stack : ℕ) (v : Json),
    (∃ s, toJsString.elem stack v = .ok s) ↔ noPrimitive stack v = false
  | _, null => by simp [toJsString.elem, noPrimitive]
  | _, bool b => by simp [toJsString.elem, toJsString, noPrimitive]
  | _, num x => by simp [toJsString.elem, toJsString, noPrimitive]
  | _, str s => by simp [toJsString.elem, toJsString, noPrimitive]
  | _, obj o => by
    cases h : (Obj.get? o (js "toString")).isSome <;> simp [toJsString.elem, toJsString, noPrimitive, h]
  | 0, arr _ => by simp [toJsString.elem, toJsString, noPrimitive]
  | stack + 1, arr es => by
    rw [toJsString.elem, toJsString, noPrimitive]
    · exact joinElems_isOk stack es
    · simp

end

end Json

/-! ### `JSON.parse` -/

namespace JsonParser

def isJsonWs (c : UInt16) : Bool := c == 0x20 || c == 0x09 || c == 0x0A || c == 0x0D

def skipWs (s : JsString) : JsString := s.dropWhile isJsonWs

def hexDigit? (c : UInt16) : Option UInt16 :=
  if isDigit c then some (c - 0x30)
  else if 0x61 ≤ c && c ≤ 0x66 then some (c - 0x61 + 10)
  else if 0x41 ≤ c && c ≤ 0x46 then some (c - 0x41 + 10)
  else none

def simpleEscape? (c : UInt16) : Option UInt16 :=
  if c = 0x22 || c = 0x5C || c = 0x2F then some c
  else if c = 0x62 then some 0x08
  else if c = 0x66 then some 0x0C
  else if c = 0x6E then some 0x0A
  else if c = 0x72 then some 0x0D
  else if c = 0x74 then some 0x09
  else none

/-- String body after the opening quote. -/
def parseString : JsString → Option (JsString × JsString)
  | [] => none
  | c :: s =>
    if c = 0x22 then some ([], s)
    else if c < 0x20 then none
    else if c = 0x5C then
      match s with
      | 0x75 :: a :: b :: d :: e :: t => do
        let x ← hexDigit? a
        let y ← hexDigit? b
        let z ← hexDigit? d
        let w ← hexDigit? e
        let (r, t') ← parseString t
        return ((x * 0x1000 + y * 0x100 + z * 0x10 + w) :: r, t')
      | x :: t => do
        let u ← simpleEscape? x
        let (r, t') ← parseString t
        return (u :: r, t')
      | [] => none
    else (parseString s).map fun (r, t) => (c :: r, t)

/-- A number literal: optional minus, no leading zeros, optional fraction and exponent. -/
def parseNumber (s : JsString) : Option (Num × JsString) := do
  let neg := s.head? == some 0x2D
  let s := if neg then s.drop 1 else s
  let ip := s.takeWhile isDigit
  if ip.isEmpty || (ip.head? == some 0x30 && 1 < ip.length) then none else
  let s := s.drop ip.length
  let fp := if s.head? == some 0x2E then (s.drop 1).takeWhile isDigit else []
  if s.head? == some 0x2E && fp.isEmpty then none else
  let s := if s.head? == some 0x2E then s.drop (fp.length + 1) else s
  let hasExp := s.head? == some 0x65 || s.head? == some 0x45
  let s' := s.drop 1
  let eneg := s'.head? == some 0x2D
  let s' := if eneg || s'.head? == some 0x2B then s'.drop 1 else s'
  let ep := s'.takeWhile isDigit
  if hasExp && ep.isEmpty then none else
  let m ← digitsValue 10 0 (ip ++ fp)
  let e ← digitsValue 10 0 (if hasExp then ep else [])
  return (decimalToNum neg m ((if eneg then -(e : ℤ) else e) - fp.length),
    if hasExp then s'.drop ep.length else s)

mutual

def parseValue : ℕ → JsString → Option (Json × JsString)
  | 0, _ => none
  | n + 1, s =>
    match skipWs s with
    | [] => none
    | c :: t =>
      if c = 0x7B then
        match skipWs t with
        | 0x7D :: t' => some (.obj [], t')
        | t' => (parseMembers n t').map fun (o, r) => (.obj o, r)
      else if c = 0x5B then
        match skipWs t with
        | 0x5D :: t' => some (.arr [], t')
        | t' => (parseElems n t').map fun (es, r) => (.arr es, r)
      else if c = 0x22 then (parseString t).map fun (x, r) => (.str x, r)
      else if (js "true").isPrefixOf (c :: t) then some (.bool true, t.drop 3)
      else if (js "false").isPrefixOf (c :: t) then some (.bool false, t.drop 4)
      else if (js "null").isPrefixOf (c :: t) then some (.null, t.drop 3)
      else (parseNumber (c :: t)).map fun (x, r) => (.num x, r)

/-- The elements of an array up to and including its closing bracket. -/
def parseElems : ℕ → JsString → Option (List Json × JsString)
  | 0, _ => none
  | n + 1, s => do
    let (v, r) ← parseValue n s
    match skipWs r with
    | 0x5D :: r' => some ([v], r')
    | 0x2C :: r' =>
      let (vs, r'') ← parseElems n r'
      return (v :: vs, r'')
    | _ => none

/-- The members of an object up to and including its closing brace. -/
def parseMembers : ℕ → JsString → Option (Obj × JsString)
  | 0, _ => none
  | n + 1, s =>
    match skipWs s with
    | 0x22 :: t => do
      let (k, r) ← parseString t
      match skipWs r with
      | 0x3A :: r' =>
        let (v, r'') ← parseValue n r'
        match skipWs r'' with
        | 0x7D :: q => some ([(k, v)], q)
        | 0x2C :: q =>
          let (o, q') ← parseMembers n q
          return ((k, v) :: o, q')
        | _ => none
      | _ => none
    | _ => none

end

end JsonParser

/-- `JSON.parse`; `none` is a SyntaxError.  Every nested call but an element's or a member's value
consumes a code unit, so twice the length bounds the nesting. -/
def Json.parse (s : JsString) : Option Json :=
  match JsonParser.parseValue (2 * s.length + 2) s with
  | some (v, r) => if (JsonParser.skipWs r).isEmpty then some v else none
  | none => none

/-! ### `JSON.stringify` -/

namespace Json

def hexUnit (n : UInt16) : UInt16 := if n < 10 then n + 0x30 else n + 0x57

def unicodeEscape (c : UInt16) : JsString :=
  js "\\u" ++ [hexUnit (c / 0x1000), hexUnit (c / 0x100 % 0x10), hexUnit (c / 0x10 % 0x10), hexUnit (c % 0x10)]

def isHighSurrogate (c : UInt16) : Bool := 0xD800 ≤ c && c ≤ 0xDBFF
def isLowSurrogate (c : UInt16) : Bool := 0xDC00 ≤ c && c ≤ 0xDFFF

/-- QuoteJSONString without the quotes: lone surrogates and control characters are escaped. -/
def escapeUnits : JsString → JsString
  | [] => []
  | c :: s =>
    if isHighSurrogate c then
      match s with
      | d :: t => if isLowSurrogate d then c :: d :: escapeUnits t else unicodeEscape c ++ escapeUnits (d :: t)
      | [] => unicodeEscape c
    else
      (if c = 0x22 then js "\\\"" else if c = 0x5C then js "\\\\"
       else if c = 0x08 then js "\\b" else if c = 0x0C then js "\\f" else if c = 0x0A then js "\\n"
       else if c = 0x0D then js "\\r" else if c = 0x09 then js "\\t"
       else if c < 0x20 || isLowSurrogate c then unicodeEscape c else [c]) ++ escapeUnits s

def quote (s : JsString) : JsString := js "\"" ++ escapeUnits s ++ js "\""

/-- The array-index value of a key, if it is a canonical one. -/
def arrayIndex? (k : JsString) : Option ℕ :=
  match digitsValue 10 0 k with
  | some n => if !k.isEmpty && natDigits n == k && n < 2 ^ 32 - 1 then some n else none
  | none => none

/-- OrdinaryOwnPropertyKeys: array indices ascending, then the other keys as first defined. -/
def ownKeys (o : Obj) : List JsString :=
  let ks := (o.map Prod.fst).reverse.dedup.reverse
  ((ks.filter fun k => (arrayIndex? k).isSome).mergeSort fun a b =>
    (arrayIndex? a).getD 0 ≤ (arrayIndex? b).getD 0) ++ ks.filter fun k => (arrayIndex? k).isNone

def joinComma : List JsString → JsString
  | [] => []
  | [s] => s
  | s :: t :: ss => s ++ js "," ++ joinComma (t :: ss)

/-- `JSON.stringify(v)`. -/
def stringify : Json → JsString
  | null => js "null"
  | bool b => if b then js "true" else js "false"
  | num (.fin q) => numberToString (.fin q)
  | num _ => js "null"
  | str s => quote s
  | arr es => js "[" ++ joinComma (elems es) ++ js "]"
  | obj o =>
    let vs := fields o
    js "\x7b" ++ joinComma ((ownKeys o).map fun k =>
      quote k ++ js ":" ++ (vs.reverse.lookup k).getD []) ++ js "\x7d"
where
  elems : List Json → List JsString
    | [] => []
    | e :: es => stringify e :: elems es
  fields : List (JsString × Json) → List (JsString × JsString)
    | [] => []
    | (k, v) :: o => (k, stringify v) :: fields o

/-- What `JSON.parse` reads of `JSON.stringify(v)`: a number that is not finite is written as null. -/
def reparsed : Json → Json
  | num (.fin q) => num (.fin q)
  | num _ => null
  | arr es => arr (elems es)
  | obj o => obj (fields o)
  | v => v
where
  elems : List Json → List Json
    | [] => []
    | e :: es => reparsed e :: elems es
  fields : List (JsString × Json) → List (JsString × Json)
    | [] => []
    | (k, v) :: o => (k, reparsed v) :: fields o

/-- No number of the value is an infinity or NaN. -/
def allFinite : Json → Bool
  | num (.fin _) => true
  | num _ => false
  | arr es => elems es
  | obj o => fields o
  | _ => true
where
  elems : List Json → Bool
    | [] => true
    | e :: es => allFinite e && elems es
  fields : List (JsString × Json) → Bool
    | [] => true
    | (_, v) :: o => allFinite v && fields o

end Json

end AgyProxy.Js

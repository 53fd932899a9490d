import AgyProxy.Js.Str
import AgyProxy.Lib.Search
import Mathlib.Data.Rat.Floor

/-!
# AgyProxy.Server.StreamGuards — the guards of the two streaming legs (`src/server/stream-guards.ts`)

* `StopHoldback`: cuts streamed text at a stop string; a tail that may still become one is withheld.
* `applyStopWithHit`: the cut of the non-streaming path (`src/server/openai-adapter.ts`).
* `OutputBudget`: trips when the estimate of the streamed output reaches `max_tokens`
  (`estimateTokens`, `src/server/tokens.ts`).
-/

namespace AgyProxy

open Js Lib

/-! ### Stop strings -/

structure StopHoldback where
  stops : List JsString
  buffer : JsString
  matched : Option JsString

namespace StopHoldback

def new (stops : List JsString) : StopHoldback := ⟨stops.filter (· ≠ []), [], none⟩

def earliestMatch (hb : StopHoldback) : Option (ℕ × JsString) := firstMatch hb.buffer hb.stops

/-- The inner loop: from `k` down to `hold`, the first proper prefix of the stop the buffer ends with. -/
def holdFor (stop buffer : JsString) (hold : ℕ) : ℕ → ℕ
  | 0 => hold
  | k + 1 =>
    if k + 1 ≤ hold then hold
    else if stop.take (k + 1) <:+ buffer then k + 1
    else holdFor stop buffer hold k

/-- The longest suffix of the buffer that is a proper prefix of some stop. -/
def holdLength (hb : StopHoldback) : ℕ :=
  hb.stops.foldl (fun hold s => holdFor s hb.buffer hold (min (s.length - 1) hb.buffer.length)) 0

def drain (hb : StopHoldback) : JsString × StopHoldback :=
  match hb.earliestMatch with
  | some (index, stop) =>
    (hb.buffer.take index, { hb with matched := some stop, buffer := hb.buffer.drop index })
  | none =>
    let cut := hb.buffer.length - hb.holdLength
    (hb.buffer.take cut, { hb with buffer := hb.buffer.drop cut })

def push (hb : StopHoldback) (text : JsString) : JsString × StopHoldback :=
  if hb.matched.isSome then ([], hb) else drain { hb with buffer := hb.buffer ++ text }

/-- The flush at finish: what remains, and the matched stop. -/
def close (hb : StopHoldback) : (JsString × Option JsString) × StopHoldback :=
  match hb.matched with
  | some stop => (([], some stop), hb)
  | none =>
    match hb.earliestMatch with
    | some (index, stop) =>
      ((hb.buffer.take index, some stop), { hb with matched := some stop, buffer := [] })
    | none => ((hb.buffer, none), { hb with buffer := [] })

/-- All pushes and the close: the text let through, and the stop reported. -/
def stream (hb : StopHoldback) : List JsString → JsString × Option JsString
  | [] => hb.close.1
  | t :: ts =>
    let (out, hb') := hb.push t
    let (rest, matched) := hb'.stream ts
    (out ++ rest, matched)

end StopHoldback

/-- One stop more in the loop of `applyStopWithHit`; no cut is `-1` in the source. -/
def noteStop (text : JsString) (acc : Option ℕ × Option JsString) (s : JsString) : Option ℕ × Option JsString :=
  match indexOf s text with
  | some i => if acc.1.all fun cut => decide (i < cut) then (some i, some s) else acc
  | none => acc

def applyStopWithHit (text : JsString) (stop : List JsString) : JsString × Option JsString :=
  let (cut, hit) := stop.foldl (noteStop text) (none, none)
  (match cut with
    | some cut => text.take cut
    | none => text, hit)

/-! ### The output budget -/

/-- `[　-鿿぀-ヿ豈-﫿＀-￯가-힯]`. -/
def isCjk (c : UInt16) : Bool :=
  (0x3000 ≤ c && c ≤ 0x9FFF) || (0x3040 ≤ c && c ≤ 0x30FF) || (0xF900 ≤ c && c ≤ 0xFAFF) ||
  (0xFF00 ≤ c && c ≤ 0xFFEF) || (0xAC00 ≤ c && c ≤ 0xD7AF)

/-- The walk over the code units: the tokens so far and the current run of other characters. -/
def countTokens (tokens latinRun : ℚ) : JsString → ℚ
  | [] => tokens + latinRun / 4
  | [c] => countUnit tokens latinRun c
  | c :: d :: s =>
    if 0xD800 ≤ c && c < 0xDC00 && 0xDC00 ≤ d && d < 0xE000 then countTokens tokens (latinRun + 1) s
    else if isCjk c then countTokens (tokens + (1 + latinRun / 4)) 0 (d :: s)
    else if isWhiteSpace c then countTokens tokens (latinRun + 1 / 4) (d :: s)
    else countTokens tokens (latinRun + 1) (d :: s)
where
  /-- the last code unit -/
  countUnit (tokens latinRun : ℚ) (c : UInt16) : ℚ :=
    if isCjk c then tokens + (1 + latinRun / 4)
    else if isWhiteSpace c then tokens + (latinRun + 1 / 4) / 4
    else tokens + (latinRun + 1) / 4

def estimateTokens (text : JsString) : ℕ :=
  if text.isEmpty then 0 else max 1 (⌊countTokens 0 0 text + 1 / 2⌋.toNat)

structure OutputBudget where
  maxTokens : ℚ
  spent : ℕ

namespace OutputBudget

def new (maxTokens : ℚ) : OutputBudget := ⟨maxTokens, 0⟩

/-- Record generated output; true once the budget is exhausted. -/
def charge (b : OutputBudget) (text : JsString) : Bool × OutputBudget :=
  if b.maxTokens ≤ b.spent then (true, b)
  else
    let b' := { b with spent := b.spent + estimateTokens text }
    (decide (b'.maxTokens ≤ b'.spent), b')

end OutputBudget

end AgyProxy

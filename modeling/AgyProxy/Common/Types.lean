import AgyProxy.Js.Json
import AgyProxy.Js.Regex

/-!
# AgyProxy.Common.Types — the shared vocabulary (`src/common/types.ts`)

The normalized events of the stream-json parser, the stable error codes, and the text sniffers that
classify a failed run.  Every regular expression is written out with the pieces of the source's.
-/

namespace AgyProxy

open Js

/-- Stable engine error codes. -/
inductive Err
  | auth | agyNotInstalled | agyVersionUnsupported | agyError | timeout | processExit | invalidOutput
  | unknownModel | unsupportedReasoningEffort | busy | poolExhausted | validationRequired
  | modelNotAllowed | aborted
deriving DecidableEq

/-- A non-empty string. -/
def truthy? (id : Option JsString) : Option JsString := id.filter fun s => !s.isEmpty

inductive PermissionMode
  | skip | plan | acceptEdits
deriving DecidableEq

/-- Raw usage object as emitted by agy; an absent counter is an absent property. -/
structure RawUsage where
  inputTokens : Option ℚ
  outputTokens : Option ℚ
  thinkingTokens : Option ℚ
  cacheReadTokens : Option ℚ
  cacheWriteTokens : Option ℚ
  totalTokens : Option ℚ
deriving DecidableEq

/-- The usage object without properties. -/
def RawUsage.empty : RawUsage := ⟨none, none, none, none, none, none⟩

/-- `Object.keys(usage).length > 0`. -/
def RawUsage.nonEmpty (u : RawUsage) : Bool := u != RawUsage.empty

inductive AgyStepKind
  | text | thinking | tool | title | subagent | userInput | unknown
deriving DecidableEq

structure AgyToolInfo where
  name : JsString
  args : Option Json
  output : Option Json
  error : Option JsString

structure InitEvent where
  conversationId : Option JsString
  model : Option JsString

structure StepEvent where
  stepKey : JsString
  stepKind : AgyStepKind
  text : JsString
  /-- true when this step is a sequential fragment to append (`text_delta`) -/
  fragment : Bool
  tool : Option AgyToolInfo
  state : Option JsString
  usage : Option RawUsage

structure ResultEvent where
  conversationId : JsString
  ok : Bool
  response : JsString
  error : Option JsString
  usage : RawUsage
deriving DecidableEq

/-- Normalized event of one agy stdout line. -/
inductive AgyEvent
  | init (ev : InitEvent)
  | step (ev : StepEvent)
  | result (ev : ResultEvent)
  | garbage (line : JsString)

namespace AgyEvent

def isStep : AgyEvent → Bool
  | step _ => true
  | _ => false

def isResult : AgyEvent → Bool
  | result _ => true
  | _ => false

end AgyEvent

/-! ### Text sniffing -/

open Rx in
/-- `/authentication required|authentication failed|please sign in|not signed in|timed out waiting
for authentication/i`. -/
def authFailureRx : Rx :=
  alts ([js "authentication required", js "authentication failed", js "please sign in",
    js "not signed in", js "timed out waiting for authentication"].map litI)

def looksLikeAuthFailure (text : JsString) : Bool := authFailureRx.test text

def notWhiteSpace (c : UInt16) : Bool := !isWhiteSpace c

/-- Drop the longest suffix of characters in the class: `s.replace(/[…]+$/, '')`. -/
def stripTrailing (p : UInt16 → Bool) (s : JsString) : JsString := s.rdropWhile p

/-- Google OAuth consent URL, trailing punctuation trimmed. -/
def extractAuthUrl (text : JsString) : Option JsString :=
  ((Rx.seq (.lit (js "https://accounts.google.com/")) (.many notWhiteSpace 1)).exec text).map fun m =>
    stripTrailing (fun c => (js ")]>.,;'\"").contains c) m.matched

open Rx in
/-- HARD, server-issued rate-limit signatures. -/
def hardRateLimitRx : Rx :=
  let sep := opt (cls fun c => (js " :").contains c)
  let code429 (w : String) := seqs (litI (js w)) [sep, lit (js "429"), wordBoundary]
  alts [litI (js "RESOURCE_EXHAUSTED"), code429 "code", code429 "status", code429 "HTTP",
    litI (js "too many requests"), litI (js "individual quota reached"),
    seq (litI (js "quota ")) (alts ([js "exceeded", js "reached", js "exhausted"].map litI)),
    seqs (litI (js "rate")) [opt (cls fun c => (js " -").contains c), litI (js "limit"),
      opt (litI (js "ed")), lit (js " "), alts ([js "exceeded", js "reached", js "hit"].map litI)],
    seqs (litI (js "exceeded ")) [opt (alts ([js "your ", js "the "].map litI)), litI (js "quota")]]

/-- The only patterns allowed to put an account into cooldown. -/
def looksLikeHardRateLimit (text : JsString) : Bool := hardRateLimitRx.test text

/-- Hard signatures plus capacity signals; shapes the message only. -/
def looksLikeRateLimit (text : JsString) : Bool :=
  looksLikeHardRateLimit text ||
    (Rx.alts ([js "model overloaded", js "experiencing high traffic"].map .litI)).test text

def looksLikeValidationRequired (text : JsString) : Bool :=
  (Rx.litI (js "VALIDATION_REQUIRED")).test text

/-- The https challenge URL of a VALIDATION_REQUIRED failure text. -/
def extractValidationUrl (text : JsString) : Option JsString :=
  if !looksLikeValidationRequired text then none
  else
    let urlChar := fun c => !isWhiteSpace c && !(js "\"'`<>\\").contains c
    ((Rx.seq (.lit (js "https://")) (.many urlChar 1)).exec text).map fun m =>
      stripTrailing (fun c => (js ")]>.,;").contains c) m.matched

/-- `brief`: one line, at most 300 characters and an ellipsis. -/
def brief (s : JsString) : JsString :=
  let flat := Rx.replaceAll (.many isWhiteSpace 1) (js " ") (trim s)
  if 300 < flat.length then flat.take 300 ++ js "..." else flat

/-- `[A-Za-z0-9._-]`, plus the extra characters given. -/
def tokenChar (extra : JsString) (c : UInt16) : Bool :=
  isWordChar c || (js ".-").contains c || extra.contains c

/-- Client-boundary scrub of terminal failure text: OAuth access tokens, bearer headers and long
`4/…` authorization codes. -/
def scrubTokenMaterial (text : JsString) : JsString :=
  let out := Rx.replaceAll (.seq (.lit (js "ya29.")) (.many (tokenChar []) 1)) (js "<oauth-token-redacted>") text
  let out := Rx.replaceAll (Rx.seqs (.litI (js "Bearer")) [.many isWhiteSpace 1, .many notWhiteSpace 1])
    (js "Bearer <redacted>") out
  Rx.replaceAll (Rx.seqs .wordBoundary [.lit (js "4/"), .many (tokenChar (js "+=")) 20])
    (js "<code-redacted>") out

end AgyProxy

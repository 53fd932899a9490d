import AgyProxy.Host.Parser
import AgyProxy.Host.Recording
import AgyProxy.Host.Runner

/-!
# AgyProxy.Host.Attempt — one spawn attempt (`runOnce` of `src/host/engine.ts`)

* `LiveAttempt`: a running process with its parser and the conversation id its stream has named so far.
* `attemptFailure`: the classification cascade over what the process left behind.
* `LiveAttempt.conclude`: flush, conversation id and failure, the `AttemptResult` of the attempt.
-/

namespace AgyProxy

open Js

/-- A pool account's id, `acc_<time>_<random>`; its files live in a HOME of its own. -/
structure AccountId where
  val : JsString
  noColon : (0x3A : UInt16) ∉ val
deriving DecidableEq

/-- What one spawn attempt concluded. -/
structure AttemptResult where
  failure : Option RecordingFailure
  outcome : RunOutcome
  rawErrText : JsString
  conversationId : Option JsString
  resultEvent : Option (Bool × JsString)
  account : Option AccountId

/-- `runOnce` between the spawn and the exit. -/
structure LiveAttempt where
  parser : StreamJsonParser
  streamCid : Option JsString
  capture : Capture

/-! ### The chunk consumer -/

/-- The conversation id the stream has named, after an event of `flush`. -/
def noteResultCid (cid : Option JsString) : AgyEvent → Option JsString
  | .result r => (truthy? (some r.conversationId)).or cid
  | _ => cid

/-- The conversation id the stream has named, after an event of `feed`. -/
def noteCid (cid : Option JsString) : AgyEvent → Option JsString
  | .init ev => (truthy? ev.conversationId).or cid
  | ev => noteResultCid cid ev

namespace LiveAttempt

def new : LiveAttempt := ⟨.new, none, .new⟩

variable (stack : ℕ)

/-- One stdout chunk: the runner's buffers, then the parser, then the recording.  A chunk the parser
throws on is parked in stderr and gives no event. -/
def onChunk (rec : RunRecording) (l : LiveAttempt) (chunk : JsString) : RunRecording × LiveAttempt :=
  let capture := l.capture.onStdout chunk
  match l.parser.feed stack chunk with
  | (.ok evs, parser) =>
    (evs.foldl RunRecording.append rec, { parser, streamCid := evs.foldl noteCid l.streamCid, capture })
  | (.error e, parser) => (rec, { l with parser, capture := capture.park e })

end LiveAttempt

/-! ### Failure classification -/

/-- Which caller gave up; null for the budget cut of the route, which is no failure. -/
def abortFailure (steerAborted : Bool) (reason : Option JsString) : Option RecordingFailure :=
  let aborted (message : JsString) : RecordingFailure := ⟨.aborted, .aborted, message⟩
  if steerAborted then some (aborted (js "superseded by a newer prompt on the same session"))
  else if reason = some (js "output-budget") then none
  else if reason = some (js "client disconnected") then some (aborted (js "client disconnected mid-generation"))
  else if reason = some (js "server shutting down") then some (aborted (js "server shutting down (grace drain)"))
  else some (aborted (js "agy run aborted by caller"))

def SNIFF_HEAD : ℕ := 4000

def sawAuthFailure (stats : ParserStats) (outcome : RunOutcome) : Bool :=
  stats.sawAuthFailure || looksLikeAuthFailure outcome.stderrTail ||
    looksLikeAuthFailure (outcome.stdout.take SNIFF_HEAD)

/-- `[stderrTail, lastResultError].filter(Boolean).join(' ')`. -/
def rawErrorText (stats : ParserStats) (outcome : RunOutcome) : JsString :=
  (js " ").intercalate ([outcome.stderrTail, stats.lastResultError.getD []].filter fun s => !s.isEmpty)

/-- `lastResultError ?? (stderrTail !== '' ? brief(stderrTail) : fallback)`. -/
def errorDetail (stats : ParserStats) (outcome : RunOutcome) (fallback : JsString) : JsString :=
  stats.lastResultError.getD (if outcome.stderrTail.isEmpty then fallback else brief outcome.stderrTail)

/-- The failure of a process that exited with no usable result, by its exit code. -/
def exitFailure (stats : ParserStats) (outcome : RunOutcome) : RecordingFailure :=
  let detail := errorDetail stats outcome []
  let suffix := if detail.isEmpty then [] else js ": " ++ detail
  let message :=
    match outcome.code, outcome.signal with
    | some code, _ => js "agy exited with code " ++ intDigits code ++ suffix
    | none, some signal => js "agy process was terminated (signal " ++ signal ++ js ")" ++ suffix
    | none, none => js "failed to spawn agy: " ++
        (if detail.isEmpty then js "unknown spawn error (binary missing or not executable?)" else detail)
  ⟨.error, .processExit, message⟩

/-- The failure of a process that exited with code 0 and no usable result. -/
def outputFailure (stats : ParserStats) (canceledEmpty : Bool) : RecordingFailure :=
  if canceledEmpty then
    ⟨.error, .invalidOutput, js "agy ended with an empty response (CANCELED, google antigravity #902)"⟩
  else
    match truthy? stats.lastResultError with
    | some e => ⟨.error, .agyError, js "agy reported an error: " ++ e⟩
    | none => ⟨.error, .invalidOutput,
        js "agy produced no result event (" ++ natDigits stats.garbage ++ js " unparseable lines)"⟩

def validationFailure (stats : ParserStats) (outcome : RunOutcome) : RecordingFailure :=
  let detail := errorDetail stats outcome (js "upstream requires re-validation (VALIDATION_REQUIRED)")
  let message :=
    match extractValidationUrl detail with
    | some url => detail ++ js " (validation_url: " ++ url ++ js ")"
    | none => detail
  ⟨.error, .validationRequired, message⟩

def rateLimitFailure (stats : ParserStats) (outcome : RunOutcome) : RecordingFailure :=
  let bestMsg := (truthy? stats.lastResultError).getD
    (if outcome.stderrTail.isEmpty then js "Rate limit or quota reached" else brief outcome.stderrTail)
  ⟨.error, .agyError, js "Google Antigravity quota / rate limit reached: " ++ bestMsg⟩

/-- What the cascade reads besides the parser's statistics and the outcome. -/
structure AttemptFacts where
  timeoutMs : ℕ
  /-- `abortFailure()` -/
  abort : Option RecordingFailure
  /-- ok flag and response of the last result envelope -/
  resultEvent : Option (Bool × JsString)
  /-- the recording has assistant text -/
  sawText : Bool

namespace AttemptFacts

/-- The guard against an ok envelope with an empty response and no text before it. -/
def canceledEmpty (f : AttemptFacts) : Bool :=
  f.resultEvent.any fun r => r.1 && r.2.isEmpty && !f.sawText

/-- A result envelope the mapper will finish on. -/
def consumable (f : AttemptFacts) : Bool :=
  (f.resultEvent.any fun r => r.1 || !r.2.isEmpty) && !f.canceledEmpty

end AttemptFacts

/-- Error classification: the first branch that applies. -/
def attemptFailure (f : AttemptFacts) (stats : ParserStats) (outcome : RunOutcome) :
    Option RecordingFailure :=
  let rawErrText := rawErrorText stats outcome
  if outcome.aborted then f.abort
  else if outcome.timedOut then
    some ⟨.error, .timeout, js "agy run was idle for " ++ natDigits f.timeoutMs ++ js "ms without output"⟩
  else if sawAuthFailure stats outcome then
    some ⟨.error, .auth, js "agy is not signed in — add a Google account to the pool (admin UI) to login"⟩
  else if looksLikeValidationRequired rawErrText then some (validationFailure stats outcome)
  else if looksLikeRateLimit rawErrText then some (rateLimitFailure stats outcome)
  else if f.consumable then none
  else if outcome.code ≠ some 0 then some (exitFailure stats outcome)
  else some (outputFailure stats f.canceledEmpty)

/-! ### The end of the attempt -/

/-- How a process ended: `exit`'s arguments, the run time, and the conversation file that appeared. -/
structure ProcessExit where
  code : Option ℤ
  signal : Option JsString
  durationMs : ℕ
  diffed : Option JsString

/-- What the attempt is settled with besides the process. -/
structure AttemptEnv where
  timeoutMs : ℕ
  steerAborted : Bool
  /-- the message of the signal's abort reason, when it is aborted -/
  reason : Option JsString
  account : Option AccountId

/-- The classified attempt: what the recording, the parser's statistics and the outcome come to. -/
def attemptResult (env : AttemptEnv) (recording : RunRecording) (stats : ParserStats) (outcome : RunOutcome)
    (conversationId : Option JsString) : AttemptResult :=
  let facts : AttemptFacts :=
    { timeoutMs := env.timeoutMs
      abort := abortFailure env.steerAborted env.reason
      resultEvent := recording.getResultEvent
      sawText := sawTextBefore recording.events recording.events.length }
  { failure := attemptFailure facts stats outcome
    outcome
    rawErrText := rawErrorText stats outcome
    conversationId
    resultEvent := facts.resultEvent
    account := env.account }

/-- `runOnce` after the exit: flush the parser, then classify.  A throwing flush throws. -/
def LiveAttempt.conclude (stack : ℕ) (env : AttemptEnv) (rec : RunRecording) (l : LiveAttempt)
    (x : ProcessExit) : Except JsError (RunRecording × AttemptResult) :=
  match l.parser.flush stack with
  | (.error e, _) => .error e
  | (.ok evs, parser) =>
    let recording := evs.foldl RunRecording.append rec
    .ok (recording, attemptResult env recording parser.stats (l.capture.outcome x.code x.signal x.durationMs)
      ((evs.foldl noteResultCid l.streamCid).or x.diffed))

/-- The outcome of an attempt that never had a process. -/
def noProcess (aborted : Bool) : RunOutcome := ⟨none, none, false, aborted, [], [], 0⟩

/-- A synchronous throw of the spawn. -/
def spawnFailed (msg : JsString) (account : Option AccountId) : AttemptResult where
  failure := some ⟨.error, .processExit, msg⟩
  outcome := noProcess false
  rawErrText := []
  conversationId := none
  resultEvent := none
  account

/-- An abort before the spawn or in the retry gap. -/
def spawnFailedAbort (env : AttemptEnv) : AttemptResult where
  failure := some ((abortFailure env.steerAborted env.reason).getD
    ⟨.aborted, .aborted, js "agy run aborted by caller"⟩)
  outcome := noProcess true
  rawErrText := []
  conversationId := none
  resultEvent := none
  account := env.account

theorem spawnFailedAbort_failure (env : AttemptEnv) : (spawnFailedAbort env).failure.isSome := rfl

end AgyProxy

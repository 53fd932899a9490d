import AgyProxy.Host.StreamTypes

/-!
# AgyProxy.Host.Recording — the event log of one run (`src/host/recording.ts`)

A run's append-only event log with its settlement state, the usage slot its consumers share, and the
call ids `agytc-<runId>-<eventIndex>` that address an event of it.  Waking the consumers is a matter
of the system the recording is part of.
-/

namespace AgyProxy

open Js

/-- A failure is an error or an abort. -/
inductive FailureKind
  | error | aborted
deriving DecidableEq

/-- Terminal failure recorded when the process ended without a usable result. -/
structure RecordingFailure where
  kind : FailureKind
  code : Err
  message : JsString
deriving DecidableEq

/-- A run id: a UUID, of which only that it is not empty matters. -/
structure RunId where
  val : JsString
  nonempty : val ≠ []

def MAX_EVENTS_PER_RUN : ℕ := 20000

structure RunRecording where
  runId : RunId
  events : List AgyEvent
  settled : Bool
  failure : Option RecordingFailure
  resultConversationId : Option JsString
  lastStepUsageRaw : Option RawUsage
  droppedEvents : ℕ
  /-- true while a future span may still resume this recording from a mirror-tool cursor -/
  keepForContinuation : Bool

namespace RunRecording

def new (runId : RunId) : RunRecording where
  runId
  events := []
  settled := false
  failure := none
  resultConversationId := none
  lastStepUsageRaw := none
  droppedEvents := 0
  keepForContinuation := false

def noteStepUsage (rec : RunRecording) (raw : RawUsage) : RunRecording :=
  { rec with lastStepUsageRaw := some raw }

/-- The usage to report for the result envelope: the last sample noted. -/
def finalUsage (rec : RunRecording) (resultRaw : RawUsage) : RawUsage :=
  rec.lastStepUsageRaw.getD resultRaw

end RunRecording

/-- The usage sample of a step event that has one with at least one counter. -/
def AgyEvent.sample? : AgyEvent → Option RawUsage
  | .step s => s.usage.filter RawUsage.nonEmpty
  | _ => none

namespace RunRecording

/-- The bookkeeping of `append`, done for stored and dropped events alike. -/
def noteEvent (rec : RunRecording) (ev : AgyEvent) : RunRecording :=
  match ev with
  | .result r => { rec with resultConversationId := some r.conversationId }
  | ev =>
    match ev.sample? with
    | some raw => rec.noteStepUsage raw
    | none => rec

/-- Append one pump event. -/
def append (rec : RunRecording) (ev : AgyEvent) : RunRecording :=
  if rec.settled then rec
  else
    let noted := rec.noteEvent ev
    if !ev.isResult && MAX_EVENTS_PER_RUN ≤ noted.events.length then
      { noted with droppedEvents := noted.droppedEvents + 1 }
    else { noted with events := noted.events ++ [ev] }

/-- Settle the recording: no further events will arrive. -/
def settle (rec : RunRecording) (failure : Option RecordingFailure) : RunRecording :=
  if rec.settled then rec else { rec with settled := true, failure }

end RunRecording

/-- The last result envelope of a log. -/
def lastResult? (events : List AgyEvent) : Option ResultEvent :=
  (events.filterMap fun | .result r => some r | _ => none).getLast?

/-- A text step with text. -/
def AgyEvent.isTextStep : AgyEvent → Bool
  | .step s => s.stepKind == .text && !s.text.isEmpty
  | _ => false

/-- Whether any assistant text was recorded before the index. -/
def sawTextBefore (events : List AgyEvent) (index : ℕ) : Bool :=
  (events.take index).any AgyEvent.isTextStep

namespace RunRecording

/-- The last result envelope's finish-relevant projection, when one arrived. -/
def getResultEvent (rec : RunRecording) : Option (Bool × JsString) :=
  (lastResult? rec.events).map fun r => (r.ok, r.response)

/-- The last result envelope's raw usage, unless it is empty. -/
def getResultRawUsage (rec : RunRecording) : Option RawUsage :=
  ((lastResult? rec.events).map ResultEvent.usage).filter RawUsage.nonEmpty

/-- Whether any client-visible step is already recorded. -/
def hasClientMappedEvents (rec : RunRecording) : Bool := rec.events.any AgyEvent.isStep

end RunRecording

/-! ### Mirror call ids -/

def AGY_CALL_PREFIX : JsString := js "agytc-"

/-- Mint the call id for one recorded tool event. -/
def mirrorCallId (runId : RunId) (eventIndex : ℕ) : JsString :=
  AGY_CALL_PREFIX ++ runId.val ++ js "-" ++ natDigits eventIndex

/-- Parse a call id back into its run coordinates; `none` when not ours. -/
def parseMirrorCallId (callId : JsString) : Option (JsString × ℕ) :=
  if !AGY_CALL_PREFIX.isPrefixOf callId then none
  else
    let rest := callId.drop AGY_CALL_PREFIX.length
    match lastIndexOf 0x2D rest with
    | none | some 0 => none
    | some (idx + 1) =>
      (stringToNumber (rest.drop (idx + 2))).safeNat?.map fun n => (rest.take (idx + 1), n)

end AgyProxy

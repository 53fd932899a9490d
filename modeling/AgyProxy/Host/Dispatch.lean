import AgyProxy.Host.Attempt
import AgyProxy.Host.SpanSystem

/-!
# AgyProxy.Host.Dispatch — the dispatch loop of one request (`AgyEngine.stream` in `src/host/engine.ts`)

From the first `runOnce` to the settlement, as a guarded step function: an action is what happens between
two awaits of the loop.  The pool, the timers, the child process and the two ways a caller gives up are
the environment; what the loop does to the pool, the session store and the accounting is recorded as lists
of calls.

* `Dispatch`: the loop's variables, the phase it stands in and the calls it made.
* `conclude`: the retry gate and `fireRun`; `settleRun`: the settlement.
* `onRun` (`src/index.ts`): the ledger rows and run events booked from the `onRun` calls.

Releasing the semaphore slot and the busy marks is in `Server.BusyMarks`: here only the pool's answer depends on it.
-/

namespace AgyProxy

open Js Lib

inductive ModelFamily
  | google | anthropic | openai | unknown
deriving DecidableEq

inductive Protocol
  | openai | anthropic
deriving DecidableEq

/-- What the server passes through a call into its `onRun` events. -/
structure CallMeta where
  reqId : Option JsString
  keyId : Option JsString
  protocol : Protocol

/-- A gateway session's agy conversation. -/
structure SessionBinding where
  conversationId : JsString
  /-- message count at bind time (digest watermark) -/
  lastMessageCount : ℕ
  model : JsString
deriving DecidableEq

/-- What `stream` has fixed when the dispatch begins. -/
structure DispatchCall where
  /-- the account selected first -/
  account : Option AccountId
  sessionAccountKey : JsString
  binding : Option SessionBinding
  family : ModelFamily
  /-- the model asked for -/
  model : JsString
  /-- the model after fallback resolution; empty for the default one -/
  activeModel : JsString
  defaultModel : JsString
  /-- `messages.length` -/
  messageCount : ℕ
  timeoutMs : ℕ
  callMeta : CallMeta

/-- `activeModel === '' ? cfg.defaultModel : activeModel`. -/
def DispatchCall.providerModel (call : DispatchCall) : JsString :=
  if call.activeModel.isEmpty then call.defaultModel else call.activeModel

/-- The account and the `--conversation` argument of one spawn. -/
structure Spawn where
  account : Option AccountId
  conversation : Option JsString
deriving DecidableEq

inductive PoolOp
  | recordSuccess (id : AccountId) (family : ModelFamily)
  | recordFailure (id : AccountId) (family : ModelFamily) (reason : JsString)
  | markAuthRequired (id : AccountId) (reason : JsString)
deriving DecidableEq

inductive StoreOp
  | set (key : JsString) (binding : SessionBinding)
  | delete (key : JsString)
deriving DecidableEq

/-- The argument of one `onRun` call; `code` is null for `'OK'`. -/
structure RunInfo where
  ok : Bool
  code : Option Err
  attempt : ℕ
  /-- true for the one attempt whose outcome settles the run -/
  final : Bool
  failureMessage : Option JsString
  durationMs : ℕ
  model : JsString
  providerModel : JsString
  usage : Option TokenUsage
  accountId : Option AccountId
  family : ModelFamily
  conversationId : Option JsString
  callMeta : CallMeta

/-! ### The accounting hook -/

structure LedgerRow where
  /-- null for a generated id -/
  requestId : Option JsString
  keyId : Option JsString
  accountId : Option AccountId
  model : JsString
  family : ModelFamily
  protocol : Protocol
  promptTokens : ℚ
  completionTokens : ℚ
  reasoningTokens : Option ℚ
  cacheReadTokens : Option ℚ
  status : Option Err
  durationMs : ℕ
  errorText : Option JsString

/-- The run event pushed to the dashboards. -/
structure BusRun where
  ok : Bool
  status : Option Err
  durationMs : ℕ
  model : JsString
  family : ModelFamily
  conversationId : Option JsString
  accountId : Option AccountId
  keyId : Option JsString
  protocol : Protocol
  reqId : Option JsString
  usage : Option TokenUsage

structure Books where
  ledger : List LedgerRow
  runEvents : List BusRun

def RunInfo.ledgerRow (i : RunInfo) : LedgerRow where
  requestId := i.callMeta.reqId
  keyId := i.callMeta.keyId
  accountId := i.accountId
  model := i.providerModel
  family := i.family
  protocol := i.callMeta.protocol
  promptTokens := (i.usage.map TokenUsage.inputTokens).getD 0
  completionTokens := (i.usage.map TokenUsage.outputTokens).getD 0
  reasoningTokens := i.usage.bind TokenUsage.reasoningTokens
  cacheReadTokens := i.usage.bind TokenUsage.cacheReadTokens
  status := i.code
  durationMs := i.durationMs
  errorText := truthy? i.failureMessage

def RunInfo.busRun (i : RunInfo) : BusRun where
  ok := i.ok
  status := i.code
  durationMs := i.durationMs
  model := i.providerModel
  family := i.family
  conversationId := i.conversationId
  accountId := i.accountId
  keyId := i.callMeta.keyId
  protocol := i.callMeta.protocol
  reqId := i.callMeta.reqId
  usage := i.usage

/-- The host's `onRun`: the ledger row and the run event are final-gated. -/
def onRun (b : Books) (i : RunInfo) : Books :=
  if !i.final then b
  else { ledger := b.ledger ++ [i.ledgerRow], runEvents := b.runEvents ++ [i.busRun] }

/-- What the host has booked after the `onRun` calls. -/
def booked (runs : List RunInfo) : Books := runs.foldl onRun ⟨[], []⟩

/-! ### The dispatch loop -/

/-- Where the loop stands. -/
inductive Phase
  /-- `runOnce`'s task waits for its turn in the account's queue -/
  | queued
  /-- the task sleeps to space the account's spawns -/
  | spacing
  | live (l : LiveAttempt)
  /-- the backoff after an attempt that will be retried -/
  | delaying (last : AttemptResult)
  | done

structure Dispatch where
  call : DispatchCall
  recording : RunRecording
  attempt : ℕ
  attemptAccount : Option AccountId
  steerAborted : Bool
  /-- the message of the signal's abort reason, once it is aborted -/
  reason : Option JsString
  phase : Phase
  /-- history: the `onRun` calls -/
  runs : List RunInfo
  /-- history: the processes started -/
  spawns : List Spawn
  /-- history: the pool calls of the settlement -/
  poolOps : List PoolOp
  /-- history: the session store calls of the settlement -/
  storeOps : List StoreOp

/-- What the queue's task comes to when it is not superseded. -/
inductive TaskTurn
  /-- the last spawn of the account was too recent -/
  | spaced
  | spawned
  /-- the spawn throws synchronously -/
  | spawnThrew (msg : JsString)

/-- What the pool answers before a retry. -/
inductive Reselection
  /-- no pool, or one without accounts -/
  | noAccounts
  /-- `selectAccount` finds none -/
  | noneFound
  | found (id : AccountId)
deriving DecidableEq

inductive DispatchAction
  /-- a newer prompt on the same session calls `requestAbort` -/
  | steer
  /-- the call's signal aborts; the message of its reason -/
  | abortSignal (reason : JsString)
  | taskTurn (turn : TaskTurn)
  | stdout (chunk : JsString)
  | stderr (chunk : JsString)
  | watchdog
  | exit (x : ProcessExit)
  | delayEnds (selected : Reselection)

def RETRYABLE_CODES : List Err := [.timeout, .processExit, .invalidOutput]
def maxRetries : ℕ := 1

open Rx in
/-- `/invalid_grant|not signed in|auth/i`. -/
def authMessageRx : Rx := alts ([js "invalid_grant", js "not signed in", js "auth"].map litI)

open Rx in
/-- `/conversation.*(not found|invalid|not recognized|expired|does not exist)|session.*(expired|invalid)/i`. -/
def staleConversationRx : Rx :=
  let dots := many (fun c => !isLineTerminator c) 0
  alt (seqs (litI (js "conversation")) [dots, alts ([js "not found", js "invalid", js "not recognized",
      js "expired", js "does not exist"].map litI)])
    (seqs (litI (js "session")) [dots, alts ([js "expired", js "invalid"].map litI)])

/-- The pool calls of a failed settlement. -/
def failurePoolOps (family : ModelFamily) (last : AttemptResult) (f : RecordingFailure) : List PoolOp :=
  match last.account with
  | none => []
  | some id =>
    (if looksLikeHardRateLimit last.rawErrText then [.recordFailure id family f.message] else []) ++
      (if f.code = .auth ∨ f.code = .validationRequired ∨ authMessageRx.test f.message then
        [.markAuthRequired id f.message] else [])

/-- Whether a failed settlement drops the session's binding. -/
def dropsBinding (last : AttemptResult) (f : RecordingFailure) : Bool :=
  f.code == .auth || looksLikeRateLimit last.rawErrText || looksLikeRateLimit f.message ||
    staleConversationRx.test f.message

namespace DispatchCall

/-- The conversation a successful settlement binds; `none` when there is nothing to bind. -/
def finalId (call : DispatchCall) (last : AttemptResult) : Option JsString :=
  truthy? (match call.binding with
    | some b => some b.conversationId
    | none => last.conversationId)

def poolOps (call : DispatchCall) (last : AttemptResult) : List PoolOp :=
  match last.failure with
  | none => last.account.toList.map fun id => .recordSuccess id call.family
  | some f => failurePoolOps call.family last f

def storeOps (call : DispatchCall) (last : AttemptResult) : List StoreOp :=
  if call.sessionAccountKey.isEmpty then []
  else
    match last.failure with
    | none => (call.finalId last).toList.map fun id =>
        .set call.sessionAccountKey ⟨id, call.messageCount, call.activeModel⟩
    | some f => if dropsBinding last f then [.delete call.sessionAccountKey] else []

end DispatchCall

namespace Dispatch

def init (call : DispatchCall) (runId : RunId) : Dispatch where
  call
  recording := .new runId
  attempt := 0
  attemptAccount := call.account
  steerAborted := false
  reason := none
  phase := .queued
  runs := []
  spawns := []
  poolOps := []
  storeOps := []

def env (s : Dispatch) : AttemptEnv where
  timeoutMs := s.call.timeoutMs
  steerAborted := s.steerAborted
  reason := s.reason
  account := s.attemptAccount

/-- The process of a live attempt. -/
def live? (s : Dispatch) : Option LiveAttempt :=
  match s.phase with
  | .live l => some l
  | _ => none

/-- `rec.isSettled || steerAborted || signal.aborted`. -/
def superseded (s : Dispatch) : Bool := s.recording.settled || s.steerAborted || s.reason.isSome

/-- The argument of the `onRun` call for an attempt. -/
def runInfo (s : Dispatch) (r : AttemptResult) (final : Bool) : RunInfo where
  ok := r.failure.isNone
  code := r.failure.map RecordingFailure.code
  attempt := s.attempt
  final
  failureMessage := r.failure.map RecordingFailure.message
  durationMs := r.outcome.durationMs
  model := s.call.model
  providerModel := s.call.providerModel
  usage := SpanState.runUsage s.recording
  accountId := r.account
  family := s.call.family
  conversationId := truthy? r.conversationId
  callMeta := s.call.callMeta

def fireRun (s : Dispatch) (r : AttemptResult) (final : Bool) : Dispatch :=
  { s with runs := s.runs ++ [s.runInfo r final] }

/-- The settlement: recording, pool, session store. -/
def settleRun (s : Dispatch) (last : AttemptResult) : Dispatch :=
  { s with
    recording := s.recording.settle last.failure
    phase := .done
    poolOps := s.poolOps ++ s.call.poolOps last
    storeOps := s.storeOps ++ s.call.storeOps last }

/-- The catch branch: the recording is settled, nothing else happens. -/
def settleThrown (s : Dispatch) (e : JsError) : Dispatch :=
  { s with
    recording := s.recording.settle
      (some ⟨.error, .processExit, js "internal error: " ++ brief e.toJsString⟩)
    phase := .done }

/-- Retry gate: outcome-level failures with nothing on the wire. -/
def canRetry (s : Dispatch) (r : AttemptResult) : Bool :=
  (r.failure.any fun f => RETRYABLE_CODES.contains f.code) &&
    (r.resultEvent.all fun e => !e.1 && e.2.isEmpty) && !s.recording.hasClientMappedEvents

def isFinal (s : Dispatch) (r : AttemptResult) : Bool :=
  !s.canRetry r || decide (maxRetries ≤ s.attempt) || s.steerAborted || s.reason.isSome

/-- The loop's body after `runOnce`. -/
def conclude (s : Dispatch) (r : AttemptResult) : Dispatch :=
  if s.isFinal r then (s.fireRun r true).settleRun r
  else { s.fireRun r false with attempt := s.attempt + 1, phase := .delaying r }

/-- The top of the loop. -/
def nextRound (s : Dispatch) : Dispatch := { s with phase := if s.recording.settled then .done else .queued }

/-- The loop's body after the backoff. -/
def retry (s : Dispatch) (last : AttemptResult) (selected : Reselection) : Dispatch :=
  if s.superseded then
    (s.fireRun (spawnFailedAbort s.env) true).settleRun (spawnFailedAbort s.env)
  else
    match selected with
    | .noAccounts => s.nextRound
    | .noneFound => s.settleRun last
    | .found id => { s with attemptAccount := some id }.nextRound

/-- `buildArgs`: the `--conversation` argument, fixed before the first attempt. -/
def conversationArg (s : Dispatch) : Option JsString :=
  truthy? (s.call.binding.map SessionBinding.conversationId)

/-- What the task does when it is not superseded; a pool account's spawns are spaced, once per task. -/
def startTask (s : Dispatch) : TaskTurn → Option Dispatch
  | .spaced =>
    match s.phase, s.attemptAccount with
    | .queued, some _ => some { s with phase := .spacing }
    | _, _ => none
  | .spawned => some
      { s with
        phase := .live .new
        spawns := s.spawns ++ [⟨s.attemptAccount, s.conversationArg⟩] }
  | .spawnThrew msg =>
    some (s.conclude (spawnFailed (js "failed to spawn agy: " ++ brief msg) s.attemptAccount))

/-- The queue's task, from its start or from the end of its sleep: give up when superseded. -/
def runTask (s : Dispatch) (turn : TaskTurn) : Option Dispatch :=
  if s.superseded then some (s.conclude (spawnFailedAbort s.env)) else s.startTask turn

/-- `proc?.kill('abort')`, or the runner's own abort listener. -/
def abortProcess (s : Dispatch) : Dispatch :=
  match s.phase with
  | .live l => { s with phase := .live { l with capture := l.capture.onAbort } }
  | _ => s

section Step

variable (stack : ℕ)

def onExit (s : Dispatch) (l : LiveAttempt) (x : ProcessExit) : Dispatch :=
  match l.conclude stack s.env s.recording x with
  | .error e => s.settleThrown e
  | .ok (recording, r) => { s with recording }.conclude r

def onStdout (s : Dispatch) (l : LiveAttempt) (chunk : JsString) : Dispatch :=
  let r := l.onChunk stack s.recording chunk
  { s with recording := r.1, phase := .live r.2 }

/-- One action; `none` when it is not enabled. -/
def step (s : Dispatch) : DispatchAction → Option Dispatch
  | .steer => some { s.abortProcess with steerAborted := true }
  | .abortSignal reason => if s.reason.isSome then none else some { s.abortProcess with reason := some reason }
  | .taskTurn turn =>
    match s.phase with
    | .queued | .spacing => s.runTask turn
    | _ => none
  | .stdout chunk =>
    match s.phase with
    | .live l => some (s.onStdout stack l chunk)
    | _ => none
  | .stderr chunk =>
    match s.phase with
    | .live l => some { s with phase := .live { l with capture := l.capture.onStderr chunk } }
    | _ => none
  | .watchdog =>
    match s.phase with
    | .live l => some { s with phase := .live { l with capture := l.capture.onWatchdog } }
    | _ => none
  | .exit x =>
    match s.phase with
    | .live l => some (s.onExit stack l x)
    | _ => none
  | .delayEnds selected =>
    match s.phase with
    | .delaying last => some (s.retry last selected)
    | _ => none

/-- The run has settled. -/
def isDone (s : Dispatch) : Bool := s.phase matches .done

/-- The runs of a request's dispatch from its first attempt to the settlement. -/
def Settles (call : DispatchCall) (runId : RunId) (as : List DispatchAction) (s : Dispatch) : Prop :=
  exec (step stack) (init call runId) as = some s ∧ s.phase matches .done

end Step

end Dispatch

end AgyProxy

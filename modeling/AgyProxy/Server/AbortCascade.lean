import AgyProxy.Host.Dispatch
import AgyProxy.Server.Semaphore

/-!
# AgyProxy.Server.AbortCascade — one `/v1` request from its handler to its processes

The handlers of `src/server/app.ts` with their `AbortController` and the `InFlightTracker` of
`src/server/shutdown.ts`, in front of `stream` in `src/host/engine.ts`: the rate-limit wait, the wait for a
slot, and the dispatch loop.

* `RunOrigin`: a request starts a run of its own, or it continues a recorded one, whose attempts may still be
  under way.
* `listens`: whether the engine's run hears the controller's signal.
* `abort`: what `abort.abort(reason)` reaches.
* `step`: any interleaving of the progress of the run with a client disconnect and the end of the shutdown grace.

The waits of other requests are the environment's: when the window opens, what the semaphore answers and when
it hands a slot over; for a continuation also the abort of the request that started its run.  The gateway sets no
session key, so no newer prompt preempts a run.
-/

namespace AgyProxy

open Js Lib

/-- Where `stream` stands. -/
inductive GatewayStage
  /-- sleeps until the rate-limit window opens -/
  | rateWait
  /-- stages images and the schema file -/
  | preparing
  /-- at `await deps.acquire(call.signal)`, with what settled the wait -/
  | acquiring (settled : Option Settlement)
  | dispatching (d : Dispatch)
  /-- it threw before the dispatch -/
  | ended

/-- Whose run the request is served from. -/
inductive RunOrigin
  /-- the run it starts -/
  | own
  /-- a recorded run; the abort reason of the signal of the request that started it, once it aborted -/
  | recorded (aborted : Option JsString)

structure GatewayRequest where
  protocol : Protocol
  /-- `meta.stream === true` -/
  streaming : Bool
  /-- what `stream` fixes for its dispatch -/
  call : DispatchCall
  /-- the message of the controller's abort reason, once it aborted -/
  aborted : Option JsString
  /-- the controller is in the `InFlightTracker` -/
  tracked : Bool
  /-- `reply.raw.writableEnded` -/
  writableEnded : Bool
  stage : GatewayStage
  origin : RunOrigin

/-- What the semaphore answers an acquire. -/
inductive SlotAnswer
  | free | waits | full
deriving DecidableEq

inductive GatewayAction
  /-- the rate-limit sleep is over, or was cut short -/
  | windowOpens
  | acquire (answer : SlotAnswer)
  /-- `release()` of another request hands its slot over -/
  | granted
  /-- the `await` of the slot continues -/
  | resume (runId : RunId)
  /-- something before the dispatch throws -/
  | fail
  | dispatch (a : DispatchAction)
  /-- the route cuts the stream at the token budget -/
  | budgetCut
  /-- the handler's `finally` -/
  | respond
  | disconnect
  | graceExpires
  /-- the request that started the recorded run is given up -/
  | originAborts (reason : JsString)

namespace GatewayStage

/-- The abort listeners: the parked waiter leaves the queue, the runner kills a live process. -/
def onAbort (reason : JsString) : GatewayStage → GatewayStage
  | .acquiring none => .acquiring (some .aborted)
  | .dispatching d => .dispatching { d.abortProcess with reason := some reason }
  | stage => stage

end GatewayStage

/-- Steering and aborting are not the dispatch loop's own actions here. -/
def DispatchAction.isOwn : DispatchAction → Bool
  | .steer => false
  | .abortSignal _ => false
  | _ => true

namespace GatewayRequest

/-- A request past its mapping, with its controller tracked; `limited` when a rate limit is configured. -/
def init (protocol : Protocol) (streaming limited : Bool) (call : DispatchCall) : GatewayRequest :=
  ⟨protocol, streaming, call, none, true, false, if limited then .rateWait else .preparing, .own⟩

/-- `detectContinuation` names a run that is recorded: `stream` goes to its span at once, wherever its dispatch
stands. -/
def continuation (protocol : Protocol) (streaming : Bool) (d : Dispatch) : GatewayRequest :=
  ⟨protocol, streaming, d.call, none, true, false, .dispatching d, .recorded d.reason⟩

/-- The run it names is no longer available. -/
def lostContinuation (protocol : Protocol) (streaming : Bool) (call : DispatchCall) : GatewayRequest :=
  ⟨protocol, streaming, call, none, true, false, .ended, .recorded none⟩

/-- `{ ...call, signal: abort.signal }` in the streaming legs; the collecting loops of both handlers pass
`withCallMeta(...)` alone.  A continuation does not look at `call.signal`. -/
def listens (r : GatewayRequest) : Bool :=
  match r.origin, r.protocol with
  | .recorded _, _ => false
  | .own, .openai => r.streaming
  | .own, .anthropic => r.streaming

/-- The abort reason of `call.signal` in the call that started the run. -/
def callSignal (r : GatewayRequest) : Option JsString :=
  match r.origin with
  | .recorded aborted => aborted
  | .own => if r.listens then r.aborted else none

/-- `abort.abort(new Error(reason))`. -/
def abort (r : GatewayRequest) (reason : JsString) : GatewayRequest :=
  if r.aborted.isSome then r
  else { r with aborted := some reason, stage := if r.listens then r.stage.onAbort reason else r.stage }

/-- The raw `'close'`. -/
def onClose (r : GatewayRequest) : GatewayRequest :=
  if r.writableEnded then r else r.abort (js "client disconnected")

/-- `abortAll`, then every socket is closed. -/
def onGrace (r : GatewayRequest) : GatewayRequest :=
  (if r.tracked then r.abort (js "server shutting down") else r).onClose

/-- The abort of the signal that the recorded run listens to. -/
def onOriginAbort (r : GatewayRequest) (reason : JsString) : Option GatewayRequest :=
  match r.origin with
  | .recorded none => some { r with origin := .recorded (some reason), stage := r.stage.onAbort reason }
  | _ => none

/-- Go on to the stage, unless the signal is aborted. -/
def unlessAborted (r : GatewayRequest) (stage : GatewayStage) : GatewayRequest :=
  { r with stage := if r.callSignal.isSome then .ended else stage }

section Step

variable (stack : ℕ)

/-- The request's own progress; `none` when it is not at that point. -/
def progress (r : GatewayRequest) (a : GatewayAction) : Option GatewayRequest :=
  match r.stage, a with
  | .rateWait, .windowOpens => some (r.unlessAborted .preparing)
  -- the fast path does not consult the signal
  | .preparing, .acquire .free => some { r with stage := .acquiring (some .granted) }
  | .preparing, .acquire .waits => some (r.unlessAborted (.acquiring none))
  | .preparing, .acquire .full => some { r with stage := .ended }
  | .acquiring none, .granted => some { r with stage := .acquiring (some .granted) }
  | .acquiring (some .granted), .resume runId => some (r.unlessAborted (.dispatching (.init r.call runId)))
  | .acquiring (some .aborted), .resume _ => some { r with stage := .ended }
  | .rateWait, .fail => some { r with stage := .ended }
  | .preparing, .fail => some { r with stage := .ended }
  | .dispatching d, .dispatch a =>
    if a.isOwn then (d.step stack a).map fun d' => { r with stage := .dispatching d' } else none
  | .dispatching _, .budgetCut => if r.streaming then some (r.abort (js "output-budget")) else none
  | _, _ => none

/-- One action; `none` when it is not enabled. -/
def step (r : GatewayRequest) : GatewayAction → Option GatewayRequest
  | .respond => if r.writableEnded then none else some { r with tracked := false, writableEnded := true }
  | .disconnect => if r.writableEnded then none else some r.onClose
  | .graceExpires => some r.onGrace
  | .originAborts reason => r.onOriginAbort reason
  | a => r.progress stack a

end Step

/-- How a request begins: with a run of its own, or with a run that any interleaving of its steps has led to where
it stands (no newer prompt preempts it), or with none. -/
inductive Begins (stack : ℕ) : GatewayRequest → Prop
  | own (protocol : Protocol) (streaming limited : Bool) (call : DispatchCall) :
      Begins stack (init protocol streaming limited call)
  | continues (protocol : Protocol) (streaming : Bool) {call : DispatchCall} {runId : RunId}
      {as : List DispatchAction} {d : Dispatch} (hsteer : ∀ a ∈ as, a ≠ .steer)
      (hrun : exec (Dispatch.step stack) (.init call runId) as = some d) :
      Begins stack (continuation protocol streaming d)
  | lost (protocol : Protocol) (streaming : Bool) (call : DispatchCall) :
      Begins stack (lostContinuation protocol streaming call)

/-! ### The cascade -/

/-- The processes started for the request, and before it for the run it continues. -/
def spawns (r : GatewayRequest) : List Spawn :=
  match r.stage with
  | .dispatching d => d.spawns
  | _ => []

/-- The process of its run. -/
def live? (r : GatewayRequest) : Option LiveAttempt :=
  match r.stage with
  | .dispatching d => d.live?
  | _ => none

/-- After the abort no process is started any more, and the one that runs was sent the kill. -/
def Cascades (stack : ℕ) (r : GatewayRequest) : Prop :=
  (∀ as s, exec (step stack) r as = some s → s.spawns = r.spawns) ∧ ∀ l ∈ r.live?, l.capture.aborted = true

/-- The two ways a caller gives up. -/
def GivesUp (a : GatewayAction) : Prop := a = .disconnect ∨ a = .graceExpires

/-- Nothing is left to stop: the request never got to its dispatch, its run has settled, or the signal the run
listens to is aborted already. -/
def Halted (r : GatewayRequest) : Bool :=
  r.callSignal.isSome ||
    match r.stage with
    | .ended => true
    | .dispatching d => (d.phase matches .done)
    | _ => false

end GatewayRequest

end AgyProxy

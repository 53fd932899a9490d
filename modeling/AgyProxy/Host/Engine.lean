import AgyProxy.Host.Dispatch

/-!
# AgyProxy.Host.Engine — requests over one session store (`src/host/engine.ts`, `src/host/sessions.ts`)

The concurrent part of the engine that the conversation bindings depend on: any number of requests, each
looking its binding up once and dispatching on its own, over one `SessionStore`.

* `lookupBinding`: the binding of a request, dropped on a model switch or a compacted history.
* `EngineState`: the store, the requests in flight or settled, and, as history, the conversations the
  processes have created, each with the account whose HOME it lives in.

Which account the pool selects is the environment's answer.  An account's queue runs one task at a time.
-/

namespace AgyProxy

open Js Lib

/-! ### The session store -/

/-- The bindings by key; persistence is not modelled. -/
abbrev SessionStore := JsString → Option SessionBinding

def StoreOp.apply (store : SessionStore) : StoreOp → SessionStore
  | set key b => Function.update store key (some b)
  | delete key => Function.update store key none

/-- The account id a key ends in, behind the tenant and the session. -/
def keyAccount? (key : JsString) : Option JsString :=
  (lastIndexOf 0x3A key).bind fun i => if (key.take i).contains 0x3A then some (key.drop (i + 1)) else none

/-! ### What a request brings -/

structure EngineCall where
  /-- `meta.keyId`, or `root` -/
  tenantKey : JsString
  sessionKey : JsString
  /-- the account the pool selected -/
  account : Option AccountId
  family : ModelFamily
  model : JsString
  activeModel : JsString
  defaultModel : JsString
  messageCount : ℕ
  timeoutMs : ℕ
  callMeta : CallMeta

namespace EngineCall

def sessionAccountKey (call : EngineCall) : JsString :=
  match call.account with
  | some id => call.tenantKey ++ js ":" ++ call.sessionKey ++ js ":" ++ id.val
  | none => if call.sessionKey.isEmpty then [] else call.tenantKey ++ js ":" ++ call.sessionKey

def currentModel (call : EngineCall) : JsString :=
  if call.activeModel.isEmpty then call.defaultModel else call.activeModel

/-- Model switch, or a history shorter than the watermark. -/
def outdates (call : EngineCall) (b : SessionBinding) : Bool :=
  (!b.model.isEmpty && b.model != call.currentModel) || decide (call.messageCount < b.lastMessageCount)

/-- The binding the request continues, and what the lookup does to the store. -/
def lookupBinding (call : EngineCall) (store : SessionStore) : Option SessionBinding × List StoreOp :=
  if call.sessionAccountKey.isEmpty then (none, [])
  else
    match store call.sessionAccountKey with
    | none => (none, [])
    | some b => if call.outdates b then (none, [.delete call.sessionAccountKey]) else (some b, [])

def dispatchCall (call : EngineCall) (binding : Option SessionBinding) : DispatchCall where
  account := call.account
  sessionAccountKey := call.sessionAccountKey
  binding
  family := call.family
  model := call.model
  activeModel := call.activeModel
  defaultModel := call.defaultModel
  messageCount := call.messageCount
  timeoutMs := call.timeoutMs
  callMeta := call.callMeta

end EngineCall

/-! ### The system -/

structure EngineState where
  store : SessionStore
  requests : List Dispatch
  /-- history: the conversations created, with the account whose HOME each lives in -/
  created : List (JsString × Option AccountId)

inductive EngineAction
  /-- a request passes the lookup and begins its dispatch -/
  | arrive (call : EngineCall) (runId : RunId)
  | act (i : ℕ) (a : DispatchAction)

/-- The account's queue task runs. -/
def Dispatch.holdsQueue (id : AccountId) (s : Dispatch) : Bool :=
  decide (s.attemptAccount = some id) && (s.phase matches .spacing | .live _)

namespace EngineState

variable (stack : ℕ)

def init : EngineState := ⟨fun _ => none, [], []⟩

/-- The queue of the attempt's account lets its task start. -/
def queueFree (s : EngineState) (r : Dispatch) : Bool :=
  match r.phase, r.attemptAccount with
  | .queued, some id => !s.requests.any (Dispatch.holdsQueue id)
  | _, _ => true

/-- The attempt result an exit gives a request. -/
def exitResult? (r : Dispatch) : DispatchAction → Option AttemptResult
  | .exit x =>
    match r.phase with
    | .live l => ((l.conclude stack r.env r.recording x).toOption).map Prod.snd
    | _ => none
  | _ => none

/-- A process started without `--conversation` has created the conversation it reports. -/
def creates (r : Dispatch) (a : DispatchAction) : List (JsString × Option AccountId) :=
  if r.conversationArg.isSome then []
  else (((exitResult? stack r a).bind fun res => truthy? res.conversationId).map (·, r.attemptAccount)).toList

/-- The store calls a step of a request added. -/
def newStoreOps (r r' : Dispatch) : List StoreOp := r'.storeOps.drop r.storeOps.length

/-- One action; `none` when it is not enabled. -/
def step (s : EngineState) : EngineAction → Option EngineState
  | .arrive call runId =>
    let found := call.lookupBinding s.store
    some { s with
      store := found.2.foldl StoreOp.apply s.store
      requests := s.requests ++ [.init (call.dispatchCall found.1) runId] }
  | .act i a =>
    s.requests[i]?.bind fun r =>
      if (a matches .taskTurn _) && !s.queueFree r then none
      else (r.step stack a).map fun r' =>
        { store := (newStoreOps r r').foldl StoreOp.apply s.store
          requests := s.requests.set i r'
          created := s.created ++ creates stack r a }

end EngineState

end AgyProxy

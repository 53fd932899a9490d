import AgyProxy.Host.Engine

/-!
# AgyProxy.Host.Tenants — the requests of several API keys over one engine (`stream` in `src/host/engine.ts`)

* `KeyId`, `tenantKey`: who a request belongs to; the bootstrap root key has no id.
* `detectContinuation`: whether a request resumes a recorded run, and where.
* `Tenants`: the engine with its session store, and every run with its recording, its span consumers and
  the keys whose requests these serve.
* `step`: any interleaving of requests, dispatch steps and span steps.

What a process prints and when its run settles is the environment's choice in the span steps.
-/

namespace AgyProxy

open Js Lib

/-- The id of a managed API key: `'key_'` and hex digits. -/
structure KeyId where
  val : JsString
  isKey : js "key_" <+: val
deriving DecidableEq

/-- `meta.keyId`, or `'root'`. -/
def tenantKey : Option KeyId → JsString
  | some key => key.val
  | none => js "root"

inductive MessageRole
  | user | assistant | system | tool
deriving DecidableEq

structure EngineMessage where
  role : MessageRole
  text : JsString
  toolCallId : Option JsString

/-- The last message is the result of a mirrored tool call: its run and the event to resume after. -/
def detectContinuation (messages : List EngineMessage) : Option (JsString × ℕ) :=
  match messages.getLast? with
  | none => none
  | some last => if last.role ≠ .tool then none else (truthy? last.toolCallId).bind parseMirrorCallId

/-- A request of `/v1/…` as the engine gets it, with what the pool answers: the gateway sets no session key. -/
structure TenantRequest where
  key : Option KeyId
  messages : List EngineMessage
  account : Option AccountId
  family : ModelFamily
  model : JsString
  activeModel : JsString
  defaultModel : JsString
  timeoutMs : ℕ
  reqId : Option JsString
  protocol : Protocol

def TenantRequest.engineCall (q : TenantRequest) : EngineCall where
  tenantKey := tenantKey q.key
  sessionKey := []
  account := q.account
  family := q.family
  model := q.model
  activeModel := q.activeModel
  defaultModel := q.defaultModel
  messageCount := q.messages.length
  timeoutMs := q.timeoutMs
  callMeta := ⟨q.reqId, q.key.map KeyId.val, q.protocol⟩

/-- One run: the key it was started under, its recording with the consumers of it, and the keys of their
requests. -/
structure TenantRun where
  owner : Option KeyId
  span : SpanState
  readers : List (Option KeyId)

namespace TenantRun

/-- `driveSpan` on behalf of a key; `none` when the registry no longer has the run. -/
def read (run : TenantRun) (key : Option KeyId) (cursor : ℕ) : Option TenantRun :=
  (run.span.step (.attach cursor)).map fun span => { run with span, readers := run.readers ++ [key] }

/-- `runs.create()` and the span of the request that started the run. -/
def start (key : Option KeyId) (runId : RunId) : TenantRun where
  owner := key
  span := { SpanState.init runId with consumers := [Consumer.attach (.new runId) 0] }
  readers := [key]

/-- The registry has the run under that id. -/
def isRun (run : TenantRun) (runId : JsString) : Bool :=
  run.span.registered && run.span.recording.runId.val == runId

end TenantRun

/-- Dispatch `i` of the engine and run `i` belong together. -/
structure Tenants where
  engine : EngineState
  runs : List TenantRun
  /-- history: the conversations bound, with the key of the run that bound each -/
  bound : List (Option KeyId × JsString)

inductive TenantAction
  /-- `runId` is the id a new run gets -/
  | request (q : TenantRequest) (runId : RunId)
  | dispatch (i : ℕ) (a : DispatchAction)
  | span (i : ℕ) (a : SpanAction)
  /-- the registry is over its capacity -/
  | evict (i : ℕ)

/-- A span is attached by a request only. -/
def SpanAction.attaches : SpanAction → Bool
  | .attach _ => true
  | _ => false

def StoreOp.bound? : StoreOp → Option JsString
  | .set _ b => some b.conversationId
  | .delete _ => none

namespace Tenants

variable (stack : ℕ)

def init : Tenants := ⟨.init, [], []⟩

/-- `runs.get(runId)`. -/
def find (s : Tenants) (runId : JsString) : Option ℕ := s.runs.findIdx? fun run => run.isRun runId

def setRun (s : Tenants) (i : ℕ) (run : TenantRun) : Tenants := { s with runs := s.runs.set i run }

/-- A continuation reads the run it names, when there is one; it starts no process. -/
def resume (s : Tenants) (key : Option KeyId) (runId : JsString) (eventIndex : ℕ) : Tenants :=
  match (s.find runId).bind fun i => s.runs[i]?.bind fun run => (run.read key (eventIndex + 1)).map (i, ·) with
  | some (i, run) => s.setRun i run
  | none => s

/-- The conversations a step of request `i` binds. -/
def newlyBound (s : Tenants) (engine : EngineState) (i : ℕ) : List (Option KeyId × JsString) :=
  match s.runs[i]?, s.engine.requests[i]?, engine.requests[i]? with
  | some run, some r, some r' => (EngineState.newStoreOps r r').filterMap fun op => op.bound?.map (run.owner, ·)
  | _, _, _ => []

/-- One action; `none` when it is not enabled.  Run ids do not repeat. -/
def step (s : Tenants) : TenantAction → Option Tenants
  | .request q runId =>
    match detectContinuation q.messages with
    | some (id, eventIndex) => some (s.resume q.key id eventIndex)
    | none =>
      if s.runs.any fun run => run.span.recording.runId.val == runId.val then none
      else (s.engine.step stack (.arrive q.engineCall runId)).map fun engine =>
        { s with engine, runs := s.runs ++ [.start q.key runId] }
  | .dispatch i a =>
    (s.engine.step stack (.act i a)).map fun engine =>
      { s with engine, bound := s.bound ++ s.newlyBound engine i }
  | .span i a =>
    if a.attaches then none
    else s.runs[i]?.bind fun run => (run.span.step a).map fun span => s.setRun i { run with span }
  | .evict i => s.runs[i]?.map fun run => s.setRun i { run with span := run.span.forget }

/-! ### Isolation -/

/-- What the requests of a key are given comes from runs of that key, and what their processes continue was
bound under it. -/
structure Isolated (s : Tenants) : Prop where
  output : ∀ run ∈ s.runs, ∀ p ∈ run.readers.zip run.span.consumers, p.2.delivered ≠ [] → run.owner = p.1
  conversations : ∀ p ∈ s.runs.zip s.engine.requests, ∀ sp ∈ p.2.spawns, ∀ id, sp.conversation = some id →
    (p.1.owner, id) ∈ s.bound

/-- **The step condition**: a continuation names no run of another key. -/
def OwnContinuation (s : Tenants) : TenantAction → Prop
  | .request q _ => ∀ c ∈ detectContinuation q.messages, ∀ i ∈ s.find c.1, ∀ run ∈ s.runs[i]?, run.owner = q.key
  | _ => True

instance (s : Tenants) : ∀ a : TenantAction, Decidable (s.OwnContinuation a)
  | .request q _ => inferInstanceAs (Decidable
      (∀ c ∈ detectContinuation q.messages, ∀ i ∈ s.find c.1, ∀ run ∈ s.runs[i]?, run.owner = q.key))
  | .dispatch _ _ | .span _ _ | .evict _ => inferInstanceAs (Decidable True)

end Tenants

end AgyProxy

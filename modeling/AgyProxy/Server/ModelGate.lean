import AgyProxy.Host.Models
import AgyProxy.Host.Tenants
import AgyProxy.Server.Errors
import AgyProxy.Server.KeyStore

/-!
# AgyProxy.Server.ModelGate — from the requested model to the spawned one

The way of a request's model through the adapters (`mapChatRequest`, `mapMessagesRequest`) and the engine
(`stream` and `buildArgs` in `src/host/engine.ts`).

* `requestModel`: the model an adapter reads off the body, or the response it refuses with.
* `chooseEffort`, `serve`, `whitelistCheck`: what the engine decides before it dispatches.
* `buildArgs`: the argv of every attempt; `CliArg.modelSlugs`: the models an argument selects.
* `ModelGate`: any number of requests over one `KeyStore`, with the keys edited in between.

The configuration and the catalog of a request are read in one turn of the event loop, by the adapter and
by the engine; what the pool answers is the environment's choice.
-/

namespace AgyProxy

open Js Lib

/-! ### The adapters -/

/-- The part of the gateway configuration that decides about the model and the argv. -/
structure StreamConfig where
  defaultModel : JsString
  defaultEffort : JsString
  autoFallbackModel : Bool
  permissionMode : PermissionMode
  timeoutMs : ℕ
  extraArgs : List JsString

/-- `body.model`. -/
inductive BodyModel
  | absent
  | notString
  | text (s : JsString)

/-- A refused body; Anthropic errors have no code. -/
structure RequestRefusal where
  statusCode : ℕ
  type : ErrorType
  code : Option JsString
  message : JsString
deriving DecidableEq

/-- `bad`. -/
def badRequest (p : Protocol) (message : JsString) : RequestRefusal where
  statusCode := 400
  type := .invalidRequestError
  code := match p with
    | .openai => some (js "invalid_request")
    | .anthropic => none
  message

def joinTexts (sep : JsString) : List JsString → JsString
  | [] => []
  | [s] => s
  | s :: rest => s ++ sep ++ joinTexts sep rest

def modelNotFound (p : Protocol) (catalog : Catalog) (model : JsString) : RequestRefusal where
  statusCode := 404
  type := match p with
    | .openai => .invalidRequestError
    | .anthropic => .notFoundError
  code := match p with
    | .openai => some (js "model_not_found")
    | .anthropic => none
  message := js "model '" ++ model ++ js "' was not found by this gateway — available models: " ++
    joinTexts (js ", ") (catalog.models.map CatalogEntry.id)

/-- A discovered catalog knows every model there is. -/
def unknownTo (catalog : Catalog) (model : JsString) : Bool :=
  decide (catalog.source = .discovered) && (findEntry catalog model).isNone && resolveModelSlug model == model

/-- `call.model`. -/
def requestModel (p : Protocol) (cfg : StreamConfig) (catalog : Catalog) :
    BodyModel → Except RequestRefusal JsString
  | .notString => .error (badRequest p (js "model must be a string"))
  | .text s =>
    if trim s = [] then .error (badRequest p (js "model must be a non-empty string"))
    else if unknownTo catalog s then .error (modelNotFound p catalog s)
    else .ok s
  | .absent =>
    if cfg.defaultModel = [] then .error (badRequest p (js "model is required"))
    else if unknownTo catalog cfg.defaultModel then .error (modelNotFound p catalog cfg.defaultModel)
    else .ok cfg.defaultModel

/-! ### The engine's decisions -/

structure EngineError where
  message : JsString
  code : Err
  retryAfterSec : Option ℕ
deriving DecidableEq

/-- `activeModel === '' ? cfg.defaultModel : activeModel`. -/
def orDefault (cfg : StreamConfig) (model : JsString) : JsString := if model = [] then cfg.defaultModel else model

def isGemini (model : JsString) : Bool := (js "gemini").isPrefixOf (toLowerCase model)

/-- The reasoning effort: the wanted one when the catalog has it, else the default of a known entry. -/
def chooseEffort (cfg : StreamConfig) (catalog : Catalog) (model : JsString) (reasoningEffort : Option JsString) :
    Except EngineError (Option JsString) :=
  if !isGemini (orDefault cfg model) then .ok none
  else
    match reasoningEffort, findEntry catalog model with
    | none, none => .ok none
    | none, some entry => .ok (defaultEffortFor entry cfg.defaultEffort)
    | some wanted, none => .ok (some wanted)
    | some wanted, some entry =>
      match entry.efforts with
      | none => .error ⟨js "model " ++ model ++ js " has no selectable reasoning efforts",
          .unsupportedReasoningEffort, none⟩
      | some efforts =>
        if wanted ∈ efforts then .ok (some wanted)
        else .error ⟨js "reasoning effort " ++ wanted ++ js " is not supported by " ++ model,
          .unsupportedReasoningEffort, none⟩

/-- What the pool answers to one request. -/
structure PoolAnswers where
  /-- `getAccounts().length > 0` -/
  hasAccounts : Bool
  /-- `selectAccount`; the flag says whether busy accounts are skipped -/
  selectAccount (family : ModelFamily) (skipBusy : Bool) : Option AccountId
  earliestResetMs (family : ModelFamily) : Option ℕ

/-- The model and the account a request is served with. -/
structure Served where
  account : Option AccountId
  family : ModelFamily
  activeModel : JsString

def ModelFamily.name : ModelFamily → JsString
  | .google => js "google"
  | .anthropic => js "anthropic"
  | .openai => js "openai"
  | .unknown => js "unknown"

/-- `Math.ceil(ms / 1000)`. -/
def ceilSeconds (ms : ℕ) : ℕ := (ms + 999) / 1000

def poolExhausted (family : ModelFamily) (countdownMs : Option ℕ) : EngineError where
  message := js "All Antigravity accounts in pool are in cooldown for " ++ family.name ++
    (match countdownMs with
      | some ms => js " (earliest reset in " ++ natDigits (ceilSeconds ms) ++ js "s)"
      | none => []) ++
    js ". Add an account or wait for reset."
  code := .poolExhausted
  retryAfterSec := countdownMs.map fun ms => max 1 (ceilSeconds ms)

def fallbackSlugs : List JsString := [js "gemini-3.5-flash", js "gemini-3.6-flash"]

/-- The first fallback model some account can serve. -/
def fallbackServed (pool : PoolAnswers) : Option Served :=
  fallbackSlugs.findSome? fun fb =>
    (pool.selectAccount (modelFamilyOf fb) false).map fun id => ⟨some id, modelFamilyOf fb, fb⟩

/-- Account selection, with the fallback switch; `model` is the resolved slug. -/
def serve (cfg : StreamConfig) (pool : PoolAnswers) (model : JsString) : Except EngineError Served :=
  let activeModel := orDefault cfg model
  let family := modelFamilyOf activeModel
  match pool.selectAccount family true with
  | some id => .ok ⟨some id, family, activeModel⟩
  | none =>
    if !pool.hasAccounts then .ok ⟨none, family, activeModel⟩
    else
      match if cfg.autoFallbackModel then fallbackServed pool else none with
      | some served => .ok served
      | none => .error (poolExhausted family (pool.earliestResetMs family))

/-- The per-key model whitelist. -/
def whitelistCheck (allowedModels : Option (List JsString)) (servingModel : JsString) : Option EngineError :=
  match allowedModels with
  | none => none
  | some allowed =>
    if allowed ≠ [] ∧ servingModel ∉ allowed then
      some ⟨js "model " ++ servingModel ++
        js " is not in this key's allowed model list — patch the key scopes in the admin UI (MODEL_NOT_ALLOWED)",
        .modelNotAllowed, none⟩
    else none

/-- The wiring of `getScopes` in `src/index.ts`. -/
def getScopes (keys : KeyStore) (keyId : Option JsString) : Option (List JsString) × KeyStore :=
  match keyId with
  | none => (none, keys)
  | some id => keys.scopesOf id

/-! ### The argv -/

inductive CliArg
  | flag (name : JsString)
  | option (name value : JsString)
  /-- words handed through -/
  | extra (words : List JsString)

def CliArg.words : CliArg → List JsString
  | flag name => [name]
  | option name value => [name, value]
  | extra words => words

/-- The values of `--model x` and `--model=x` among words handed through. -/
def slugsOfWords : List JsString → List JsString
  | [] => []
  | word :: rest =>
    (if word = js "--model" then rest.head?.toList
      else if js "--model=" <+: word then [word.drop (js "--model=").length] else []) ++ slugsOfWords rest

/-- The models an argument selects. -/
def CliArg.modelSlugs : CliArg → List JsString
  | flag _ => []
  | option name value => if name = js "--model" then [value] else []
  | extra words => slugsOfWords words

structure ArgsInput where
  prompt : JsString
  model : JsString
  effort : Option JsString
  conversationId : Option JsString
  permissionMode : PermissionMode
  timeoutMs : ℕ
  extraArgs : List JsString
  addDirs : List JsString
  printTimeoutMinutes : Option ℕ

/-- `Math.ceil(ms / 60_000)`. -/
def ceilMinutes (ms : ℕ) : ℕ := (ms + 59999) / 60000

def permissionArg : PermissionMode → CliArg
  | .skip => .flag (js "--dangerously-skip-permissions")
  | .plan => .option (js "--mode") (js "plan")
  | .acceptEdits => .option (js "--mode") (js "accept-edits")

/-- An option that is given only when its value is truthy. -/
def optionArg (name : JsString) (value : Option JsString) : List CliArg :=
  ((truthy? value).map (CliArg.option name)).toList

def buildArgs (opts : ArgsInput) : List CliArg :=
  let ptMins := opts.printTimeoutMinutes.getD (max 1 (ceilMinutes opts.timeoutMs))
  let effectiveModel := resolveModelSlug opts.model
  let effort := if effectiveModel = [] ∨ isGemini effectiveModel then opts.effort else none
  [.option (js "--output-format") (js "stream-json"),
    .option (js "--print-timeout") (natDigits ptMins ++ js "m"), permissionArg opts.permissionMode] ++
  optionArg (js "--model") (some effectiveModel) ++ optionArg (js "--effort") effort ++
  optionArg (js "--conversation") opts.conversationId ++
  opts.addDirs.map (CliArg.option (js "--add-dir")) ++
  [.extra opts.extraArgs, .option (js "-p") opts.prompt]

example : (buildArgs ⟨js "hello", js "claude-opus-4-6", some (js "medium"), none, .plan, 60000, [], [], none⟩).flatMap
    CliArg.words = [js "--output-format", js "stream-json", js "--print-timeout", js "1m", js "--mode", js "plan",
      js "--model", js "claude-opus-4-6-thinking", js "-p", js "hello"] := by decide +kernel

/-! ### One request -/

structure ApiRequest where
  protocol : Protocol
  /-- `requestKey(request)?.id`; null for the root key -/
  keyId : Option JsString
  bodyModel : BodyModel
  messages : List EngineMessage
  reasoningEffort : Option JsString
  config : StreamConfig
  catalog : Catalog
  /-- the agy binary is on the path -/
  binFound : Bool

/-- What `stream` computes between the check and the dispatch. -/
structure DispatchInput where
  prompt : JsString
  addDirs : List JsString
  /-- the file the `--json-schema` text is written to -/
  schemaFile : Option JsString
  binding : Option SessionBinding
  sessionAccountKey : JsString
  callMeta : CallMeta

inductive GatePhase
  | rejected (r : RequestRefusal)
  | failed (e : EngineError)
  /-- a recorded run is resumed: no process -/
  | resumes
  /-- up to and including the wait for the rate limit; the resolved slug -/
  | waiting (model : JsString) (effort : Option JsString)
  /-- the whitelist check has passed -/
  | checked (model : JsString) (effort : Option JsString) (served : Served)
  | dispatching (args : List CliArg) (d : Dispatch)

structure GateRequest where
  api : ApiRequest
  phase : GatePhase
  /-- history: the stored whitelist of the key at the moment of the check -/
  whitelist : Option (List JsString)

/-- `stream` up to the wait for the rate limit. -/
def streamHead (api : ApiRequest) (rawModel : JsString) : GatePhase :=
  if !api.binFound then
    .failed ⟨js "agy binary not found on PATH — install it via https://antigravity.google/docs/cli/install",
      .agyNotInstalled, none⟩
  else if (detectContinuation api.messages).isSome then .resumes
  else
    match chooseEffort api.config api.catalog (resolveModelSlug rawModel) api.reasoningEffort with
    | .error e => .failed e
    | .ok effort => .waiting (resolveModelSlug rawModel) effort

/-- The adapter, and the engine until it waits. -/
def GateRequest.arrive (api : ApiRequest) : GateRequest where
  api
  whitelist := none
  phase := match requestModel api.protocol api.config api.catalog api.bodyModel with
    | .error r => .rejected r
    | .ok rawModel => streamHead api rawModel

/-- The whitelist stored for a key. -/
def storedWhitelist (keys : KeyStore) (keyId : Option JsString) : Option (List JsString) :=
  (keyId.bind keys.get).bind fun key => parseKeyScopes key.scopes

/-- The whitelist check passes, or the request fails. -/
def whitelisted (cfg : StreamConfig) (model : JsString) (effort : Option JsString) (served : Served)
    (allowedModels : Option (List JsString)) : GatePhase :=
  match whitelistCheck allowedModels (orDefault cfg served.activeModel) with
  | some e => .failed e
  | none => .checked model effort served

namespace GateRequest

/-- From the end of the wait to the whitelist check, without an await between. -/
def check (r : GateRequest) (keys : KeyStore) (pool : PoolAnswers) : Option (GateRequest × KeyStore) :=
  match r.phase with
  | .waiting model effort =>
    match serve r.api.config pool model with
    | .error e => some ({ r with phase := .failed e }, keys)
    | .ok served =>
      let scopes := getScopes keys (truthy? r.api.keyId)
      some ({ r with
        phase := whitelisted r.api.config model effort served scopes.1
        whitelist := storedWhitelist keys (truthy? r.api.keyId) }, scopes.2)
  | _ => none

/-- The request is aborted or throws before its dispatch. -/
def throws (r : GateRequest) (e : EngineError) : Option GateRequest :=
  match r.phase with
  | .waiting _ _ | .checked _ _ _ => some { r with phase := .failed e }
  | _ => none

/-- The argv of a checked request. -/
def argsOf (cfg : StreamConfig) (effort : Option JsString) (served : Served) (input : DispatchInput) : List CliArg :=
  buildArgs
    { prompt := input.prompt
      model := orDefault cfg served.activeModel
      effort
      conversationId := input.binding.map SessionBinding.conversationId
      permissionMode := cfg.permissionMode
      timeoutMs := cfg.timeoutMs
      extraArgs := cfg.extraArgs
      addDirs := input.addDirs
      printTimeoutMinutes := some (max 240 (ceilMinutes cfg.timeoutMs)) } ++
    (input.schemaFile.map (CliArg.option (js "--json-schema"))).toList

def dispatchCall (r : GateRequest) (model : JsString) (served : Served) (input : DispatchInput) : DispatchCall where
  account := served.account
  sessionAccountKey := input.sessionAccountKey
  binding := input.binding
  family := served.family
  model
  activeModel := served.activeModel
  defaultModel := r.api.config.defaultModel
  messageCount := r.api.messages.length
  timeoutMs := r.api.config.timeoutMs
  callMeta := input.callMeta

/-- The argv is built and the dispatch begins. -/
def begin (r : GateRequest) (input : DispatchInput) (runId : RunId) : Option GateRequest :=
  match r.phase with
  | .checked model effort served => some
      { r with
        phase := .dispatching (argsOf r.api.config effort served input)
          (.init (r.dispatchCall model served input) runId) }
  | _ => none

def act (stack : ℕ) (r : GateRequest) (a : DispatchAction) : Option GateRequest :=
  match r.phase with
  | .dispatching args d => (d.step stack a).map fun d => { r with phase := .dispatching args d }
  | _ => none

/-- The argv of each process started: every attempt gets the same. -/
def spawnedArgs (r : GateRequest) : List (List CliArg) :=
  match r.phase with
  | .dispatching args d => d.spawns.map fun _ => args
  | _ => []

end GateRequest

/-! ### The system -/

structure ModelGate where
  keys : KeyStore
  requests : List GateRequest

inductive GateAction
  | keys (a : KeyAction)
  | arrive (api : ApiRequest)
  | check (i : ℕ) (pool : PoolAnswers)
  | throws (i : ℕ) (e : EngineError)
  | begin (i : ℕ) (input : DispatchInput) (runId : RunId)
  | act (i : ℕ) (a : DispatchAction)

namespace ModelGate

variable (c : KeyCrypto) (stack : ℕ)

def init (keys : KeyStore) : ModelGate := ⟨keys, []⟩

/-- A step of request `i` that leaves the keys alone. -/
def onRequest (s : ModelGate) (i : ℕ) (f : GateRequest → Option GateRequest) : Option ModelGate :=
  s.requests[i]?.bind fun r => (f r).map fun r => { s with requests := s.requests.set i r }

/-- One action; `none` when it is not enabled. -/
def step (s : ModelGate) : GateAction → Option ModelGate
  | .keys a => some { s with keys := s.keys.step c a }
  | .arrive api => some { s with requests := s.requests ++ [.arrive api] }
  | .check i pool =>
    s.requests[i]?.bind fun r => (r.check s.keys pool).map fun out => ⟨out.2, s.requests.set i out.1⟩
  | .throws i e => s.onRequest i fun r => r.throws e
  | .begin i input runId => s.onRequest i fun r => r.begin input runId
  | .act i a => s.onRequest i fun r => r.act stack a

end ModelGate

end AgyProxy

import AgyProxy.Common.Types

/-!
# AgyProxy.Common.Config — the layered configuration (`src/common/config.ts`)

* `asString`, `asBool`, `asNum`, `asMode`, …: the coercions; `undefined` is `none`.
* `buildBase`: the overrides file over the defaults.
* `applyEnv`, `finishConfig`, `resolveConfig`: the environment over both, then the floors.
* `readOverrides`: the object the overrides file holds.

The memos of the file and of the base (keyed on its path, time and size) are left out: every read parses.
-/

namespace AgyProxy

open Js

structure GatewayConfig where
  enabled : Bool
  agyBin : JsString
  extraArgs : List JsString
  permissionMode : PermissionMode
  defaultModel : JsString
  defaultEffort : JsString
  timeoutMs : ℚ
  maxConcurrent : ℚ
  maxQueueDepth : ℚ
  contextWindowDefault : ℚ
  maxTokensDefault : ℚ
  modelsCacheTtlMs : ℚ
  mediaDir : JsString
  mediaTtlMs : ℚ
  mediaMaxBytes : ℚ
  mediaMaxImages : ℚ
  workspaceRoot : JsString
  /-- the objects as the file has them: only `id` is checked -/
  fallbackModels : List Json
  rateLimitPerMinute : ℚ
  autoFallbackModel : Bool
  logRetentionDays : ℚ
  quotaPollIntervalMs : ℚ
  disableTelemetry : Bool
  debugMetricsMs : ℚ
  usageRetentionDays : ℚ
  dataDir : JsString
  port : ℚ
  host : JsString
  adminAllowCidr : JsString
  adminPassword : JsString
  trustedProxies : JsString
  apiKey : JsString
  sseHeartbeatMs : ℚ
  dbPath : JsString
  adminSessionTtlMs : ℚ
  shutdownGraceMs : ℚ
  webDist : JsString

/-- A `FallbackModelDef`; `efforts` is omitted for a fixed-thinking model. -/
def fallbackModelDef (id name : String) (efforts : List String) : Json :=
  .obj ([(js "id", .str (js id)), (js "name", .str (js name))] ++
    if efforts.isEmpty then [] else [(js "efforts", .arr (efforts.map fun e => .str (js e)))])

def DEFAULT_FALLBACK_MODELS : List Json :=
  [fallbackModelDef "gemini-3.8-flash" "Gemini 3.8 Flash" ["low", "medium", "high"],
    fallbackModelDef "gemini-3.7-flash" "Gemini 3.7 Flash" ["low", "medium", "high"],
    fallbackModelDef "gemini-3.6-flash" "Gemini 3.6 Flash" ["low", "medium", "high"],
    fallbackModelDef "gemini-3.5-flash" "Gemini 3.5 Flash" ["low", "medium", "high"],
    fallbackModelDef "gemini-3.1-pro" "Gemini 3.1 Pro" ["low", "high"],
    fallbackModelDef "claude-sonnet-4-6" "Claude Sonnet 4.6 (Thinking)" [],
    fallbackModelDef "claude-opus-4-6-thinking" "Claude Opus 4.6 (Thinking)" [],
    fallbackModelDef "gpt-oss-120b-medium" "GPT-OSS 120B (Medium)" []]

def defaultConfig : GatewayConfig where
  enabled := true
  agyBin := []
  extraArgs := []
  permissionMode := .plan
  defaultModel := []
  defaultEffort := []
  timeoutMs := 600000
  maxConcurrent := 3
  maxQueueDepth := 64
  contextWindowDefault := 1048576
  maxTokensDefault := 65536
  modelsCacheTtlMs := 300000
  mediaDir := []
  mediaTtlMs := 86400000
  mediaMaxBytes := 10 * 1024 * 1024
  mediaMaxImages := 8
  workspaceRoot := []
  fallbackModels := DEFAULT_FALLBACK_MODELS
  rateLimitPerMinute := 0
  autoFallbackModel := false
  logRetentionDays := 7
  quotaPollIntervalMs := 15 * 60000
  disableTelemetry := true
  debugMetricsMs := 0
  usageRetentionDays := 0
  dataDir := []
  port := 8080
  host := js "0.0.0.0"
  adminAllowCidr := []
  adminPassword := []
  trustedProxies := []
  apiKey := []
  sseHeartbeatMs := 60000
  dbPath := []
  adminSessionTtlMs := 7 * 86400000
  shutdownGraceMs := 25000
  webDist := []

/-! ### The coercions -/

def asString : Option Json → Option JsString
  | some (.str s) => some s
  | _ => none

def asBool : Option Json → Option Bool
  | some (.bool b) => some b
  | some (.str s) =>
    if s = js "true" ∨ s = js "1" then some true
    else if s = js "false" ∨ s = js "0" then some false else none
  | _ => none

/-- The value of a finite number. -/
def finite? : Js.Num → Option ℚ
  | .fin q => some q
  | _ => none

def asNum : Option Json → Option ℚ
  | some (.num x) => finite? x
  | some (.str s) => if trim s ≠ [] then finite? (stringToNumber s) else none
  | _ => none

def asGraceMs (v : Option Json) : Option ℚ := (asNum v).filter fun n => decide (1000 ≤ n)

def asMaxTokensFloor (v : Option Json) : Option ℚ := (asNum v).filter fun n => decide (n.den = 1 ∧ 0 ≤ n)

def PermissionMode.toJsString : PermissionMode → JsString
  | skip => js "skip"
  | plan => js "plan"
  | acceptEdits => js "accept-edits"

/-- `MODES`. -/
def MODES : List PermissionMode := [.skip, .plan, .acceptEdits]

def asMode : Option Json → Option PermissionMode
  | some (.str s) => MODES.find? fun m => decide (m.toJsString = s)
  | _ => none

def asStrings : Option Json → Option (List JsString)
  | some (.arr es) => some (es.filterMap fun e => asString (some e))
  | _ => none

/-- A truthy object with a string `id`. -/
def isFallbackModel (e : Json) : Bool :=
  match e.asObject? with
  | some o => (asString (Obj.get? o (js "id"))).isSome
  | none => false

def asFallbackModels : Option Json → Option (List Json)
  | some (.arr es) => some (es.filter isFallbackModel)
  | _ => none

/-! ### The overrides file -/

/-- The object read from the file; `file` is what `JSON.parse` gives, `none` when there is no file or it does
not parse.  An array is an object keyed by its indices. -/
def readOverrides (file : Option Json) : Obj :=
  match file with
  | some (.obj o) => o
  | some (.arr es) => es.zipIdx.map fun (e, i) => (natDigits i, e)
  | _ => []

/-- `get(k)`: null and the empty string count as absent. -/
def getOverride (overrides : Obj) (k : JsString) : Option Json :=
  match Obj.get? overrides k with
  | some .null => none
  | some (.str []) => none
  | v => v

def buildBase (overrides : Obj) : GatewayConfig :=
  let base := defaultConfig
  let get (k : String) : Option Json := getOverride overrides (js k)
  { base with
    enabled := (asBool (get "enabled")).getD base.enabled
    agyBin := (asString (get "agyBin")).getD base.agyBin
    extraArgs := (asStrings (get "extraArgs")).getD base.extraArgs
    permissionMode := (asMode (get "permissionMode")).getD base.permissionMode
    defaultModel := (asString (get "defaultModel")).getD base.defaultModel
    defaultEffort := (asString (get "defaultEffort")).getD base.defaultEffort
    timeoutMs := (asNum (get "timeoutMs")).getD base.timeoutMs
    maxConcurrent := (asNum (get "maxConcurrent")).getD base.maxConcurrent
    maxQueueDepth := (asNum (get "maxQueueDepth")).getD base.maxQueueDepth
    contextWindowDefault := (asNum (get "contextWindowDefault")).getD base.contextWindowDefault
    maxTokensDefault := (asMaxTokensFloor (get "maxTokensDefault")).getD base.maxTokensDefault
    modelsCacheTtlMs := (asNum (get "modelsCacheTtlMs")).getD base.modelsCacheTtlMs
    mediaDir := (asString (get "mediaDir")).getD base.mediaDir
    mediaTtlMs := (asNum (get "mediaTtlMs")).getD base.mediaTtlMs
    mediaMaxBytes := (asNum (get "mediaMaxBytes")).getD base.mediaMaxBytes
    mediaMaxImages := (asNum (get "mediaMaxImages")).getD base.mediaMaxImages
    workspaceRoot := (asString (get "workspaceRoot")).getD base.workspaceRoot
    fallbackModels := (asFallbackModels (get "fallbackModels")).getD base.fallbackModels
    rateLimitPerMinute := (asNum (get "rateLimitPerMinute")).getD base.rateLimitPerMinute
    autoFallbackModel := (asBool (get "autoFallbackModel")).getD base.autoFallbackModel
    logRetentionDays := (asNum (get "logRetentionDays")).getD base.logRetentionDays
    usageRetentionDays := (asNum (get "usageRetentionDays")).getD base.usageRetentionDays
    quotaPollIntervalMs := (asNum (get "quotaPollIntervalMs")).getD base.quotaPollIntervalMs
    disableTelemetry := (asBool (get "disableTelemetry")).getD base.disableTelemetry
    dataDir := (asString (get "dataDir")).getD base.dataDir
    port := (asNum (get "port")).getD base.port
    host := (asString (get "host")).getD base.host
    adminAllowCidr := (asString (get "adminAllowCidr")).getD base.adminAllowCidr
    adminPassword := (asString (get "adminPassword")).getD base.adminPassword
    trustedProxies := (asString (get "trustedProxies")).getD base.trustedProxies
    dbPath := (asString (get "dbPath")).getD base.dbPath
    adminSessionTtlMs := (asNum (get "adminSessionTtlMs")).getD base.adminSessionTtlMs
    shutdownGraceMs := (asGraceMs (get "shutdownGraceMs")).getD base.shutdownGraceMs
    webDist := (asString (get "webDist")).getD base.webDist }

/-! ### The environment -/

/-- `process.env`. -/
abbrev ProcessEnv := JsString → Option JsString

section Env

variable (env : ProcessEnv)

/-- A variable as a value to coerce. -/
def envValue (name : String) : Option Json := (env (js name)).map Json.str

/-- The same, an empty one counting as absent. -/
def envTruthy (name : String) : Option Json := (truthy? (env (js name))).map Json.str

/-- The mode the environment asks for, `AGY_PROXY_SKIP_PERMISSIONS` last. -/
def envMode (mode : PermissionMode) : PermissionMode :=
  let mode := (asMode (envTruthy env "AGY_PROXY_MODE")).getD mode
  match asBool (envValue env "AGY_PROXY_SKIP_PERMISSIONS") with
  | some skip => if skip then .skip else .plan
  | none => mode

def applyEnv (cfg : GatewayConfig) : GatewayConfig :=
  let text (name : String) (value : JsString) : JsString := (truthy? (env (js name))).getD value
  -- `t && ok(t)`
  let positive (name : String) (ok : ℚ → Bool) : Option ℚ := (asNum (envTruthy env name)).filter fun t => t != 0 && ok t
  { cfg with
    enabled := (asBool (envValue env "AGY_PROXY_ENABLED")).getD cfg.enabled
    agyBin := text "AGY_PROXY_BIN" cfg.agyBin
    permissionMode := envMode env cfg.permissionMode
    defaultModel := text "AGY_PROXY_DEFAULT_MODEL" cfg.defaultModel
    defaultEffort := text "AGY_PROXY_DEFAULT_EFFORT" cfg.defaultEffort
    timeoutMs := (positive "AGY_PROXY_TIMEOUT_MS" fun t => decide (0 < t)).getD cfg.timeoutMs
    extraArgs := ((truthy? (env (js "AGY_PROXY_EXTRA_ARGS"))).map fun s =>
      (s.splitOnP isWhiteSpace).filter (· ≠ [])).getD cfg.extraArgs
    maxConcurrent := ((asNum (envValue env "AGY_PROXY_MAX_CONCURRENT")).filter fun c =>
      decide (1 ≤ c)).getD cfg.maxConcurrent
    maxQueueDepth := ((asNum (envValue env "AGY_PROXY_MAX_QUEUE_DEPTH")).filter fun q =>
      decide (0 ≤ q)).getD cfg.maxQueueDepth
    maxTokensDefault := (asMaxTokensFloor (envValue env "AGY_PROXY_MAX_TOKENS_DEFAULT")).getD cfg.maxTokensDefault
    workspaceRoot := text "AGY_PROXY_WORKSPACE_ROOT" cfg.workspaceRoot
    mediaDir := text "AGY_PROXY_MEDIA_DIR" cfg.mediaDir
    mediaTtlMs := (positive "AGY_PROXY_MEDIA_TTL_MS" fun t => decide (0 < t)).getD cfg.mediaTtlMs
    rateLimitPerMinute := ((asNum (envTruthy env "AGY_PROXY_RATE_LIMIT_PER_MINUTE")).filter fun r =>
      decide (0 ≤ r)).getD cfg.rateLimitPerMinute
    autoFallbackModel := (asBool (envValue env "AGY_PROXY_AUTO_FALLBACK_MODEL")).getD cfg.autoFallbackModel
    logRetentionDays := (positive "AGY_PROXY_LOG_RETENTION_DAYS" fun l => decide (0 < l)).getD cfg.logRetentionDays
    usageRetentionDays := ((positive "AGY_PROXY_USAGE_RETENTION_DAYS" fun d => decide (0 < d)).map fun d =>
      (⌊d⌋ : ℚ)).getD cfg.usageRetentionDays
    quotaPollIntervalMs := (positive "AGY_PROXY_QUOTA_POLL_INTERVAL_MS" fun q =>
      decide (60000 ≤ q)).getD cfg.quotaPollIntervalMs
    dataDir := text "AGY_PROXY_DATA_DIR" cfg.dataDir
    port := (positive "AGY_PROXY_PORT" fun p => decide (0 < p ∧ p < 65536)).getD cfg.port
    host := text "AGY_PROXY_HOST" cfg.host
    adminAllowCidr := text "AGY_PROXY_ADMIN_ALLOW_CIDR" cfg.adminAllowCidr
    adminPassword := text "AGY_PROXY_ADMIN_PASSWORD" cfg.adminPassword
    trustedProxies := text "AGY_PROXY_TRUSTED_PROXIES" cfg.trustedProxies
    dbPath := text "AGY_PROXY_DB_PATH" cfg.dbPath
    adminSessionTtlMs := (positive "AGY_PROXY_ADMIN_SESSION_TTL_MS" fun t =>
      decide (60000 ≤ t)).getD cfg.adminSessionTtlMs
    shutdownGraceMs := (positive "AGY_PROXY_SHUTDOWN_GRACE_MS" fun t => decide (1000 ≤ t)).getD cfg.shutdownGraceMs
    webDist := text "AGY_PROXY_WEB_DIST" cfg.webDist
    debugMetricsMs := ((asNum (envTruthy env "AGY_PROXY_DEBUG_METRICS_MS")).filter fun d =>
      decide (0 ≤ d)).getD cfg.debugMetricsMs
    -- an empty string disables auth, which an absent variable does not
    apiKey := (env (js "AGY_PROXY_API_KEY")).getD cfg.apiKey
    sseHeartbeatMs := ((((env (js "AGY_PROXY_SSE_HEARTBEAT_MS")).map stringToNumber).bind finite?).filter fun v =>
      decide (0 ≤ v)).getD cfg.sseHeartbeatMs }

/-- The floors after layering. -/
def finishConfig (cfg : GatewayConfig) : GatewayConfig :=
  let cfg := applyEnv env cfg
  { cfg with maxConcurrent := max 1 cfg.maxConcurrent, maxQueueDepth := max 0 cfg.maxQueueDepth }

def resolveConfig (overrides : Obj) : GatewayConfig := finishConfig env (buildBase overrides)

end Env

end AgyProxy

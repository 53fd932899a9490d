import AgyProxy.Common.Config

/-!
# AgyProxy.Server.Settings — the settings write path (`src/server/settings.ts`)

* `WritableKey`: the keys an admin may write, with the variables that own them (`ENV_OWNERS`).
* `sanitizeSettings`: a PUT body is turned into a patch, or refused with every problem it has.
* `writeOverridesPatch`, `putSettings`: the merge into the overrides file and the handler of
  `PUT /admin/settings` (`src/server/admin-api.ts`).

The file is given by the value its text parses to, `none` when it is missing or does not parse.
-/

namespace AgyProxy

open Js

inductive WritableKey
  | defaultModel | defaultEffort | timeoutMs | maxConcurrent | maxQueueDepth | permissionMode | enabled
  | autoFallbackModel | quotaPollIntervalMs
deriving DecidableEq

def WRITABLE_KEYS : List WritableKey :=
  [.defaultModel, .defaultEffort, .timeoutMs, .maxConcurrent, .maxQueueDepth, .permissionMode, .enabled,
    .autoFallbackModel, .quotaPollIntervalMs]

def MAX_STRING_LENGTH : ℕ := 200

namespace WritableKey

def name : WritableKey → JsString
  | defaultModel => js "defaultModel"
  | defaultEffort => js "defaultEffort"
  | timeoutMs => js "timeoutMs"
  | maxConcurrent => js "maxConcurrent"
  | maxQueueDepth => js "maxQueueDepth"
  | permissionMode => js "permissionMode"
  | enabled => js "enabled"
  | autoFallbackModel => js "autoFallbackModel"
  | quotaPollIntervalMs => js "quotaPollIntervalMs"

/-- The writable key of a raw one. -/
def ofName? (k : JsString) : Option WritableKey := WRITABLE_KEYS.find? fun key => decide (key.name = k)

/-- `ENV_OWNERS[key].wins`. -/
def wins (env : ProcessEnv) : WritableKey → Bool
  | defaultModel => (truthy? (env (js "AGY_PROXY_DEFAULT_MODEL"))).isSome
  | defaultEffort => (truthy? (env (js "AGY_PROXY_DEFAULT_EFFORT"))).isSome
  | timeoutMs => (asNum (envValue env "AGY_PROXY_TIMEOUT_MS")).any fun t => decide (0 < t)
  | maxConcurrent => (asNum (envValue env "AGY_PROXY_MAX_CONCURRENT")).any fun c => decide (1 ≤ c)
  | maxQueueDepth => (asNum (envValue env "AGY_PROXY_MAX_QUEUE_DEPTH")).any fun q => decide (0 ≤ q)
  | permissionMode =>
    if (truthy? (env (js "AGY_PROXY_MODE"))).isSome then (asMode (envValue env "AGY_PROXY_MODE")).isSome
    else (asBool (envValue env "AGY_PROXY_SKIP_PERMISSIONS")).isSome
  | enabled => (asBool (envValue env "AGY_PROXY_ENABLED")).isSome
  | autoFallbackModel => (asBool (envValue env "AGY_PROXY_AUTO_FALLBACK_MODEL")).isSome
  | quotaPollIntervalMs => (asNum (envValue env "AGY_PROXY_QUOTA_POLL_INTERVAL_MS")).any fun q => decide (60000 ≤ q)

end WritableKey

def envLockedKeys (env : ProcessEnv) : List WritableKey := WRITABLE_KEYS.filter fun key => key.wins env

/-! ### Validation -/

/-- `Object.entries(v)`. -/
def objectEntries : Json → Obj
  | .obj o => (Json.ownKeys o).map fun k => (k, (Obj.get? o k).getD .null)
  | .arr es => es.zipIdx.map fun (e, i) => (natDigits i, e)
  | .str s => s.zipIdx.map fun (c, i) => (natDigits i, .str [c])
  | _ => []

/-- `'${key}' must …`. -/
def settingError (key : WritableKey) (problem : String) : JsString := js "'" ++ key.name ++ js "' must be " ++ js problem

/-- A string setting; the empty one clears the override. -/
def sanitizeText (key : WritableKey) (value : Json) : Except JsString Json :=
  match value with
  | .str s =>
    if MAX_STRING_LENGTH < s.length then .error (settingError key "a string of at most 200 chars") else .ok (.str s)
  | _ => .error (settingError key "a string of at most 200 chars")

/-- A numeric setting in its range. -/
def sanitizeNumber (key : WritableKey) (problem : String) (ok : ℚ → Bool) (value : Json) : Except JsString Json :=
  match asNum (some value) with
  | some n => if ok n then .ok (.num (.fin n)) else .error (settingError key problem)
  | none => .error (settingError key problem)

def sanitizeBool (key : WritableKey) (value : Json) : Except JsString Json :=
  match value with
  | .bool b => .ok (.bool b)
  | _ => .error (settingError key "a boolean")

/-- The `switch` of `sanitizeSettings`: the value stored, or the problem. -/
def sanitizeSetting (key : WritableKey) (value : Json) : Except JsString Json :=
  match key with
  | .defaultModel => sanitizeText .defaultModel value
  | .defaultEffort => sanitizeText .defaultEffort value
  | .timeoutMs => sanitizeNumber .timeoutMs "a positive number of milliseconds" (fun n => decide (0 < n)) value
  | .maxConcurrent => sanitizeNumber .maxConcurrent "a number >= 1" (fun n => decide (1 ≤ n)) value
  | .maxQueueDepth => sanitizeNumber .maxQueueDepth "a number >= 0" (fun n => decide (0 ≤ n)) value
  | .quotaPollIntervalMs =>
    sanitizeNumber .quotaPollIntervalMs "a number >= 60000 (clamped floor in config)" (fun n => decide (60000 ≤ n)) value
  | .permissionMode =>
    match asMode (some value) with
    | some m => .ok (.str m.toJsString)
    | none => .error (settingError .permissionMode "one of: skip, plan, accept-edits")
  | .enabled => sanitizeBool .enabled value
  | .autoFallbackModel => sanitizeBool .autoFallbackModel value

/-- An entry of the body: the definition it adds to the patch, or its problem. -/
def sanitizeEntry (entry : JsString × Json) : Except JsString (JsString × Json) :=
  match WritableKey.ofName? entry.1 with
  | some key => (sanitizeSetting key entry.2).map fun v => (entry.1, v)
  | none => .error (js "unknown setting '" ++ entry.1 ++ js "'")

/-- The problems and the patch, collected entry by entry. -/
def sanitizeEntries : Obj → List JsString × Obj
  | [] => ([], [])
  | entry :: entries =>
    let (errors, patch) := sanitizeEntries entries
    match sanitizeEntry entry with
    | .error error => (error :: errors, patch)
    | .ok definition => (errors, definition :: patch)

def sanitizeSettings (input : Json) : Except JsString Obj :=
  let (errors, patch) := sanitizeEntries (objectEntries input)
  if errors ≠ [] then .error ((js "; ").intercalate errors) else .ok patch

/-! ### The write -/

/-- The merged object is written as text and read back by every later read. -/
def writeOverridesPatch (patch : Obj) (file : Option Json) : Option Json :=
  if patch = [] then file else some (Json.reparsed (.obj (readOverrides file ++ patch)))

/-- A field of the configuration as the settings page shows it. -/
def GatewayConfig.effective (cfg : GatewayConfig) : WritableKey → Json
  | .defaultModel => .str cfg.defaultModel
  | .defaultEffort => .str cfg.defaultEffort
  | .timeoutMs => .num (.fin cfg.timeoutMs)
  | .maxConcurrent => .num (.fin cfg.maxConcurrent)
  | .maxQueueDepth => .num (.fin cfg.maxQueueDepth)
  | .permissionMode => .str cfg.permissionMode.toJsString
  | .enabled => .bool cfg.enabled
  | .autoFallbackModel => .bool cfg.autoFallbackModel
  | .quotaPollIntervalMs => .num (.fin cfg.quotaPollIntervalMs)

structure SettingsView where
  /-- the values stored in the overrides file -/
  requested : WritableKey → Option Json
  effective : WritableKey → Json
  envLocked : List WritableKey

def settingsView (env : ProcessEnv) (file : Option Json) : SettingsView where
  requested key := Obj.get? (readOverrides file) key.name
  effective := (resolveConfig env (readOverrides file)).effective
  envLocked := envLockedKeys env

/-- The answer to a PUT, and the file after it. -/
structure SettingsReply where
  statusCode : ℕ
  error : Option JsString
  view : Option SettingsView
  file : Option Json

/-- `request.body ?? {}`. -/
def settingsBody : Option Json → Json
  | some .null => .obj []
  | some v => v
  | none => .obj []

/-- `PUT /admin/settings`. -/
def putSettings (env : ProcessEnv) (file : Option Json) (body : Option Json) : SettingsReply :=
  match sanitizeSettings (settingsBody body) with
  | .error error => ⟨400, some error, none, file⟩
  | .ok patch =>
    let file := writeOverridesPatch patch file
    ⟨200, none, some (settingsView env file), file⟩

end AgyProxy

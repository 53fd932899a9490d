import AgyProxy.Server.Settings

/-!
# AgyProxy.Server.SettingsSpec — which keys the environment decides

* `envDecision`, `storedValue`: what the two upper layers make of a writable key, each alone.
* `effective_eq`: the resolver's value is the environment's decision, else the stored value's.
* `wins_iff`: the table of owners has the same variables decide, but for `AGY_PROXY_SKIP_PERMISSIONS` under
  an invalid `AGY_PROXY_MODE`.
* `lockAgrees_iff`: **the locks reported are the keys the environment decides, but for that case**.
-/

namespace AgyProxy

open Js

section Layers

variable (env : ProcessEnv)

/-- The number a variable gives, when it is in range. -/
def envNumber (name : String) (ok : ℚ → Bool) : Option ℚ := (asNum (envValue env name)).filter ok

/-- The mode the environment gives. -/
def modeDecision : Option PermissionMode :=
  match asBool (envValue env "AGY_PROXY_SKIP_PERMISSIONS") with
  | some skip => some (if skip then .skip else .plan)
  | none => asMode (envValue env "AGY_PROXY_MODE")

/-- What the environment makes of a key. -/
def envDecision : WritableKey → Option Json
  | .defaultModel => (truthy? (env (js "AGY_PROXY_DEFAULT_MODEL"))).map Json.str
  | .defaultEffort => (truthy? (env (js "AGY_PROXY_DEFAULT_EFFORT"))).map Json.str
  | .timeoutMs => (envNumber env "AGY_PROXY_TIMEOUT_MS" fun t => decide (0 < t)).map fun t => .num (.fin t)
  | .maxConcurrent => (envNumber env "AGY_PROXY_MAX_CONCURRENT" fun c => decide (1 ≤ c)).map fun c => .num (.fin c)
  | .maxQueueDepth => (envNumber env "AGY_PROXY_MAX_QUEUE_DEPTH" fun q => decide (0 ≤ q)).map fun q => .num (.fin q)
  | .permissionMode => (modeDecision env).map fun m => .str m.toJsString
  | .enabled => (asBool (envValue env "AGY_PROXY_ENABLED")).map Json.bool
  | .autoFallbackModel => (asBool (envValue env "AGY_PROXY_AUTO_FALLBACK_MODEL")).map Json.bool
  | .quotaPollIntervalMs =>
    (envNumber env "AGY_PROXY_QUOTA_POLL_INTERVAL_MS" fun q => decide (60000 ≤ q)).map fun q => .num (.fin q)

/-- What the overrides file makes of a key; `v` is the value `get` returns for it. -/
def storedValue (v : Option Json) : WritableKey → Json
  | .defaultModel => .str ((asString v).getD defaultConfig.defaultModel)
  | .defaultEffort => .str ((asString v).getD defaultConfig.defaultEffort)
  | .timeoutMs => .num (.fin ((asNum v).getD defaultConfig.timeoutMs))
  | .maxConcurrent => .num (.fin (max 1 ((asNum v).getD defaultConfig.maxConcurrent)))
  | .maxQueueDepth => .num (.fin (max 0 ((asNum v).getD defaultConfig.maxQueueDepth)))
  | .permissionMode => .str ((asMode v).getD defaultConfig.permissionMode).toJsString
  | .enabled => .bool ((asBool v).getD defaultConfig.enabled)
  | .autoFallbackModel => .bool ((asBool v).getD defaultConfig.autoFallbackModel)
  | .quotaPollIntervalMs => .num (.fin ((asNum v).getD defaultConfig.quotaPollIntervalMs))

/-! ### The resolver -/

/-- An empty variable is no number. -/
theorem asNum_envTruthy (name : String) : asNum (envTruthy env name) = asNum (envValue env name) := by
  unfold envTruthy envValue truthy?
  rcases env (js name) with _ | _ | ⟨c, s⟩ <;> rfl

/-- An empty variable is no mode. -/
theorem asMode_envTruthy (name : String) : asMode (envTruthy env name) = asMode (envValue env name) := by
  unfold envTruthy envValue truthy?
  rcases env (js name) with _ | _ | ⟨c, s⟩
  · rfl
  · decide +kernel
  · rfl

theorem envMode_eq (mode : PermissionMode) : envMode env mode = (modeDecision env).getD mode := by
  unfold envMode modeDecision
  rw [asMode_envTruthy]
  cases asBool (envValue env "AGY_PROXY_SKIP_PERMISSIONS") <;> rfl

/-- `t && ok(t)` is `ok(t)` when zero is out of range. -/
theorem positive_eq (name : String) {ok : ℚ → Bool} (hzero : ok 0 = false) :
    (asNum (envTruthy env name)).filter (fun t => t != 0 && ok t) = envNumber env name ok := by
  unfold envNumber
  rw [asNum_envTruthy]
  refine congrArg (fun p => Option.filter p _) (funext fun t => ?_)
  by_cases ht : t = 0
  · rw [ht, hzero, Bool.and_false]
  · rw [bne_iff_ne.mpr ht, Bool.true_and]

/-- A floor does not touch a number that is in range. -/
theorem floored_eq (name : String) (floor value : ℚ) :
    max floor ((envNumber env name fun t => decide (floor ≤ t)).getD value) =
      (envNumber env name fun t => decide (floor ≤ t)).getD (max floor value) := by
  unfold envNumber
  cases hnum : (asNum (envValue env name)).filter fun t => decide (floor ≤ t) with
  | none => rfl
  | some t => exact max_eq_right (of_decide_eq_true (Option.filter_eq_some_iff.mp hnum).2)

/-- **The layers**: the environment, then the overrides file. -/
theorem effective_eq (overrides : Obj) (key : WritableKey) : (resolveConfig env overrides).effective key =
    (envDecision env key).getD (storedValue (getOverride overrides key.name) key) := by
  cases key with
  | defaultModel => exact (Option.getD_map ..).symm
  | defaultEffort => exact (Option.getD_map ..).symm
  | timeoutMs =>
    show Json.num (.fin (((asNum (envTruthy env "AGY_PROXY_TIMEOUT_MS")).filter fun t =>
      t != 0 && decide (0 < t)).getD _)) = _
    rw [positive_eq env _ rfl]
    exact (Option.getD_map (Json.num ∘ Js.Num.fin) _ _).symm
  | maxConcurrent =>
    exact (congrArg (Json.num ∘ Js.Num.fin) (floored_eq env _ 1 _)).trans (Option.getD_map ..).symm
  | maxQueueDepth =>
    exact (congrArg (Json.num ∘ Js.Num.fin) (floored_eq env _ 0 _)).trans (Option.getD_map ..).symm
  | permissionMode =>
    show Json.str (envMode env _).toJsString = _
    rw [envMode_eq]
    exact (Option.getD_map (Json.str ∘ PermissionMode.toJsString) _ _).symm
  | enabled => exact (Option.getD_map ..).symm
  | autoFallbackModel => exact (Option.getD_map ..).symm
  | quotaPollIntervalMs =>
    show Json.num (.fin (((asNum (envTruthy env "AGY_PROXY_QUOTA_POLL_INTERVAL_MS")).filter fun q =>
      q != 0 && decide (60000 ≤ q)).getD _)) = _
    rw [positive_eq env _ (by norm_num)]
    exact (Option.getD_map (Json.num ∘ Js.Num.fin) _ _).symm

/-! ### The table of owners -/

/-- The variable `AGY_PROXY_MODE` is set to no mode, and `AGY_PROXY_SKIP_PERMISSIONS` to a boolean. -/
def SkipUnderInvalidMode : Prop :=
  (truthy? (env (js "AGY_PROXY_MODE"))).isSome ∧ asMode (envValue env "AGY_PROXY_MODE") = none ∧
    (asBool (envValue env "AGY_PROXY_SKIP_PERMISSIONS")).isSome

/-- An absent or empty variable is no mode. -/
theorem asMode_untruthy {name : String} (h : truthy? (env (js name)) = none) : asMode (envValue env name) = none := by
  rw [← asMode_envTruthy]
  unfold envTruthy
  rw [h]
  rfl

theorem wins_number (name : String) (ok : ℚ → Bool) :
    (asNum (envValue env name)).any ok = ((envNumber env name ok).map (Json.num ∘ Js.Num.fin)).isSome := by
  unfold envNumber
  rw [Option.isSome_map]
  cases asNum (envValue env name) with
  | none => rfl
  | some t =>
    rw [Option.any_some, Option.filter_some]
    cases ok t <;> rfl

theorem wins_mode : WritableKey.wins env .permissionMode = true ↔
    (modeDecision env).isSome = true ∧ ¬ SkipUnderInvalidMode env := by
  show (if (truthy? (env (js "AGY_PROXY_MODE"))).isSome = true then (asMode (envValue env "AGY_PROXY_MODE")).isSome
    else (asBool (envValue env "AGY_PROXY_SKIP_PERMISSIONS")).isSome) = true ↔ _
  unfold modeDecision SkipUnderInvalidMode
  cases hmode : truthy? (env (js "AGY_PROXY_MODE")) with
  | none =>
    rw [asMode_untruthy env hmode]
    cases asBool (envValue env "AGY_PROXY_SKIP_PERMISSIONS") <;> simp
  | some s =>
    cases asMode (envValue env "AGY_PROXY_MODE") <;>
      cases asBool (envValue env "AGY_PROXY_SKIP_PERMISSIONS") <;> simp

/-- The table agrees with the resolver on every key, one combination of values of the mode apart. -/
theorem wins_iff (key : WritableKey) : key.wins env = true ↔
    (envDecision env key).isSome = true ∧ ¬ (key = .permissionMode ∧ SkipUnderInvalidMode env) := by
  have hother : key ≠ .permissionMode → key.wins env = (envDecision env key).isSome → (key.wins env = true ↔
      (envDecision env key).isSome = true ∧ ¬ (key = .permissionMode ∧ SkipUnderInvalidMode env)) := by
    intro hkey hwins
    rw [hwins]
    exact (and_iff_left fun h => hkey h.1).symm
  cases key with
  | defaultModel => exact hother WritableKey.noConfusion Option.isSome_map.symm
  | defaultEffort => exact hother WritableKey.noConfusion Option.isSome_map.symm
  | timeoutMs => exact hother WritableKey.noConfusion (wins_number env _ _)
  | maxConcurrent => exact hother WritableKey.noConfusion (wins_number env _ _)
  | maxQueueDepth => exact hother WritableKey.noConfusion (wins_number env _ _)
  | permissionMode =>
    rw [wins_mode]
    show _ ↔ ((modeDecision env).map _).isSome = true ∧ _
    rw [Option.isSome_map]
    exact and_congr_right fun _ => not_congr (and_iff_right rfl).symm
  | enabled => exact hother WritableKey.noConfusion Option.isSome_map.symm
  | autoFallbackModel => exact hother WritableKey.noConfusion Option.isSome_map.symm
  | quotaPollIntervalMs => exact hother WritableKey.noConfusion (wins_number env _ _)

theorem mem_WRITABLE_KEYS (key : WritableKey) : key ∈ WRITABLE_KEYS := by cases key <;> decide

theorem mem_envLockedKeys (key : WritableKey) : key ∈ envLockedKeys env ↔ key.wins env = true := by
  unfold envLockedKeys
  rw [List.mem_filter, and_iff_right (mem_WRITABLE_KEYS key)]

/-! ### What it means that the environment decides -/

/-- The key with a value in the overrides. -/
def withOverride (overrides : Obj) (key : WritableKey) (v : Json) : Obj := overrides ++ [(key.name, v)]

/-- The effective value is the same for all values of the key in the overrides. -/
def EnvDecides (overrides : Obj) (key : WritableKey) : Prop :=
  ∀ v v', (resolveConfig env (withOverride overrides key v)).effective key =
    (resolveConfig env (withOverride overrides key v')).effective key

/-- Two values of a key that the resolver tells apart. -/
def twoValues : WritableKey → Json × Json
  | .defaultModel => (.str (js "a"), .str (js "b"))
  | .defaultEffort => (.str (js "a"), .str (js "b"))
  | .timeoutMs => (.num (.fin 1), .num (.fin 2))
  | .maxConcurrent => (.num (.fin 1), .num (.fin 2))
  | .maxQueueDepth => (.num (.fin 1), .num (.fin 2))
  | .permissionMode => (.str (js "skip"), .str (js "plan"))
  | .enabled => (.bool true, .bool false)
  | .autoFallbackModel => (.bool true, .bool false)
  | .quotaPollIntervalMs => (.num (.fin 1), .num (.fin 2))

theorem getOverride_withOverride (overrides : Obj) (key : WritableKey) (v : Json) :
    getOverride (withOverride overrides key v) key.name = getOverride [(key.name, v)] key.name := by
  unfold getOverride withOverride
  rw [Obj.get?_append, Obj.get?_singleton, if_pos rfl, Option.some_or]

theorem storedValue_twoValues (key : WritableKey) :
    storedValue (getOverride [(key.name, (twoValues key).1)] key.name) key ≠
      storedValue (getOverride [(key.name, (twoValues key).2)] key.name) key := by
  unfold getOverride
  rw [Obj.get?_singleton, Obj.get?_singleton, if_pos rfl, if_pos rfl]
  cases key with
  | defaultModel => exact fun h => absurd (Json.str.inj h) (by decide)
  | defaultEffort => exact fun h => absurd (Json.str.inj h) (by decide)
  | timeoutMs => exact fun h => absurd (Json.num.inj h) (by decide +kernel)
  | maxConcurrent => exact fun h => absurd (Json.num.inj h) (by decide +kernel)
  | maxQueueDepth => exact fun h => absurd (Json.num.inj h) (by decide +kernel)
  | permissionMode => exact fun h => absurd (Json.str.inj h) (by decide +kernel)
  | enabled => exact fun h => absurd (Json.bool.inj h) (by decide)
  | autoFallbackModel => exact fun h => absurd (Json.bool.inj h) (by decide)
  | quotaPollIntervalMs => exact fun h => absurd (Json.num.inj h) (by decide +kernel)

theorem envDecides_iff (overrides : Obj) (key : WritableKey) :
    EnvDecides env overrides key ↔ (envDecision env key).isSome = true := by
  unfold EnvDecides
  constructor
  · intro hsame
    have htwo := hsame (twoValues key).1 (twoValues key).2
    rw [effective_eq, effective_eq, getOverride_withOverride, getOverride_withOverride] at htwo
    cases henv : envDecision env key with
    | none =>
      rw [henv] at htwo
      exact absurd htwo (storedValue_twoValues key)
    | some value => rfl
  · intro hsome v v'
    obtain ⟨value, hvalue⟩ := Option.isSome_iff_exists.mp hsome
    rw [effective_eq, effective_eq, hvalue]
    rfl

/-- The variables that own a key. -/
def WritableKey.envVars : WritableKey → List JsString
  | defaultModel => [js "AGY_PROXY_DEFAULT_MODEL"]
  | defaultEffort => [js "AGY_PROXY_DEFAULT_EFFORT"]
  | timeoutMs => [js "AGY_PROXY_TIMEOUT_MS"]
  | maxConcurrent => [js "AGY_PROXY_MAX_CONCURRENT"]
  | maxQueueDepth => [js "AGY_PROXY_MAX_QUEUE_DEPTH"]
  | permissionMode => [js "AGY_PROXY_MODE", js "AGY_PROXY_SKIP_PERMISSIONS"]
  | enabled => [js "AGY_PROXY_ENABLED"]
  | autoFallbackModel => [js "AGY_PROXY_AUTO_FALLBACK_MODEL"]
  | quotaPollIntervalMs => [js "AGY_PROXY_QUOTA_POLL_INTERVAL_MS"]

/-- The environment with the variables of a key absent. -/
def withoutVars (key : WritableKey) : ProcessEnv := fun name => if name ∈ key.envVars then none else env name

/-- Without its variables the environment decides nothing about a key. -/
theorem envDecision_absent {key : WritableKey} (habsent : ∀ name ∈ key.envVars, env name = none) :
    envDecision env key = none := by
  cases key with
  | defaultModel | defaultEffort =>
    simp only [envDecision, habsent _ List.mem_cons_self]
    rfl
  | permissionMode =>
    have hskip := habsent _ (List.mem_cons_of_mem _ List.mem_cons_self)
    simp only [envDecision, modeDecision, envValue, habsent _ List.mem_cons_self, hskip]
    rfl
  | enabled | autoFallbackModel =>
    simp only [envDecision, envValue, habsent _ List.mem_cons_self]
    rfl
  | timeoutMs | maxConcurrent | maxQueueDepth | quotaPollIntervalMs =>
    simp only [envDecision, envNumber, envValue, habsent _ List.mem_cons_self]
    rfl

/-- A key is locked exactly when the environment decides it, and an unlocked one has the value it has
without its variables. -/
def LockAgrees (overrides : Obj) (key : WritableKey) : Prop :=
  (key ∈ envLockedKeys env ↔ EnvDecides env overrides key) ∧
    (key ∉ envLockedKeys env → (resolveConfig env overrides).effective key =
      (resolveConfig (withoutVars env key) overrides).effective key)

/-- **Locks and resolution**: they agree on every key, environment and overrides object, except on the
permission mode when an invalid `AGY_PROXY_MODE` hides that `AGY_PROXY_SKIP_PERMISSIONS` decides. -/
theorem lockAgrees_iff (overrides : Obj) (key : WritableKey) : LockAgrees env overrides key ↔
    ¬ (key = .permissionMode ∧ SkipUnderInvalidMode env) := by
  unfold LockAgrees
  rw [mem_envLockedKeys, wins_iff, envDecides_iff]
  constructor
  · rintro ⟨hlock, -⟩ ⟨rfl, hskip⟩
    have hsome : (envDecision env .permissionMode).isSome = true := by
      obtain ⟨skip, hbool⟩ := Option.isSome_iff_exists.mp hskip.2.2
      show ((modeDecision env).map _).isSome = true
      unfold modeDecision
      rw [hbool]
      rfl
    exact (hlock.mpr hsome).2 ⟨rfl, hskip⟩
  · intro hmode
    refine ⟨and_iff_left hmode, fun hunlocked => ?_⟩
    have hnone : envDecision env key = none := by
      cases henv : envDecision env key with
      | none => rfl
      | some value => exact absurd ⟨henv ▸ rfl, hmode⟩ hunlocked
    have habsent : envDecision (withoutVars env key) key = none :=
      envDecision_absent (withoutVars env key) fun name hname => if_pos hname
    rw [effective_eq, effective_eq, hnone, habsent]

/-- `AGY_PROXY_MODE=bogus AGY_PROXY_SKIP_PERMISSIONS=true`. -/
def bogusMode : ProcessEnv := fun name =>
  if name = js "AGY_PROXY_MODE" then some (js "bogus")
  else if name = js "AGY_PROXY_SKIP_PERMISSIONS" then some (js "true") else none

/-- The mode is not reported as locked, while the environment decides it. -/
theorem lockAgrees_bogusMode : ¬ LockAgrees bogusMode [] .permissionMode := by
  rintro ⟨hlock, -⟩
  have hdecides : EnvDecides bogusMode [] .permissionMode := by
    rw [envDecides_iff]
    decide +kernel
  have hlocked := hlock.mpr hdecides
  rw [mem_envLockedKeys] at hlocked
  exact absurd hlocked (by decide +kernel)

end Layers

end AgyProxy

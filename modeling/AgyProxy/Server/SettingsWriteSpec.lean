import AgyProxy.Js.JsonSpec
import AgyProxy.Server.SettingsSpec

/-!
# AgyProxy.Server.SettingsWriteSpec — what a settings write does to the effective configuration

* `sanitizeEntries_ok`: an accepted body has one definition in the patch for each of its entries.
* `storedValue_sanitizeSetting`: the resolver reads back each value the validation lets through.
* `otherKeys_resolveConfig`: the keys an admin cannot write depend on their own definitions only.
* `settingsRoundTrip_iff`: **a refused body changes nothing and an accepted one only its own keys, unless a
  kept value holds a number that is not finite**.
-/

namespace AgyProxy

open Js

/-! ### Validation -/

/-- The entries of a PUT body. -/
def bodyEntries (body : Option Json) : Obj := objectEntries (settingsBody body)

theorem WritableKey.ofName?_eq_some {k : JsString} {key : WritableKey} (h : WritableKey.ofName? k = some key) :
    k = key.name := by
  unfold WritableKey.ofName? at h
  have hname := List.find?_some h
  exact (of_decide_eq_true hname).symm

theorem WritableKey.name_injective : Function.Injective WritableKey.name := by
  intro a b h
  have hofName : ∀ key : WritableKey, WritableKey.ofName? key.name = some key := by
    intro key
    cases key <;> decide +kernel
  exact Option.some.inj ((hofName a).symm.trans (h ▸ hofName b))

/-- What the validation of a key stores. -/
def Storable : WritableKey → Json → Prop
  | .defaultModel, v => ∃ s, v = .str s
  | .defaultEffort, v => ∃ s, v = .str s
  | .timeoutMs, v => ∃ n : ℚ, 0 < n ∧ v = .num (.fin n)
  | .maxConcurrent, v => ∃ n : ℚ, 1 ≤ n ∧ v = .num (.fin n)
  | .maxQueueDepth, v => ∃ n : ℚ, 0 ≤ n ∧ v = .num (.fin n)
  | .permissionMode, v => ∃ m : PermissionMode, v = .str m.toJsString
  | .enabled, v => ∃ b, v = .bool b
  | .autoFallbackModel, v => ∃ b, v = .bool b
  | .quotaPollIntervalMs, v => ∃ n : ℚ, 60000 ≤ n ∧ v = .num (.fin n)

section Validation

variable {key : WritableKey} {value v : Json}

theorem sanitizeText_ok (h : sanitizeText key value = .ok v) : ∃ s, v = .str s := by
  unfold sanitizeText at h
  split at h
  · next s =>
    split_ifs at h
    exact ⟨s, (Except.ok.inj h).symm⟩
  · cases h

theorem sanitizeNumber_ok {problem : String} {ok : ℚ → Bool} (h : sanitizeNumber key problem ok value = .ok v) :
    ∃ n, ok n = true ∧ v = .num (.fin n) := by
  unfold sanitizeNumber at h
  split at h
  · next n hn =>
    split_ifs at h with hok
    exact ⟨n, hok, (Except.ok.inj h).symm⟩
  · cases h

theorem sanitizeBool_ok (h : sanitizeBool key value = .ok v) : ∃ b, v = .bool b := by
  unfold sanitizeBool at h
  split at h
  · next b => exact ⟨b, (Except.ok.inj h).symm⟩
  · cases h

theorem sanitizeSetting_ok (h : sanitizeSetting key value = .ok v) : Storable key v := by
  have hnumber : ∀ {key problem} {bound : ℚ → Prop} [DecidablePred bound],
      sanitizeNumber key problem (fun n => decide (bound n)) value = .ok v → ∃ n, bound n ∧ v = .num (.fin n) := by
    intro key problem bound _ h
    obtain ⟨n, hn, hv⟩ := sanitizeNumber_ok h
    exact ⟨n, of_decide_eq_true hn, hv⟩
  cases key with
  | defaultModel | defaultEffort => exact sanitizeText_ok h
  | timeoutMs | maxConcurrent | maxQueueDepth | quotaPollIntervalMs => exact hnumber h
  | enabled | autoFallbackModel => exact sanitizeBool_ok h
  | permissionMode =>
    unfold sanitizeSetting at h
    dsimp only at h
    split at h
    · next m hm => exact ⟨m, (Except.ok.inj h).symm⟩
    · cases h

theorem Storable.allFinite (h : Storable key v) : v.allFinite = true := by
  cases key with
  | defaultModel | defaultEffort | permissionMode | enabled | autoFallbackModel =>
    obtain ⟨_, rfl⟩ := h
    simp [Json.allFinite]
  | timeoutMs | maxConcurrent | maxQueueDepth | quotaPollIntervalMs =>
    obtain ⟨_, -, rfl⟩ := h
    simp [Json.allFinite]

/-- The effective value a write asks for: an empty string clears a key. -/
def writtenValue (key : WritableKey) (v : Json) : Json :=
  match v with
  | .str [] => defaultConfig.effective key
  | v => v

/-- **Writer and reader agree**: every stored value is read back as itself. -/
theorem Storable.storedValue_eq {o : Obj} (h : Storable key v) (hget : Obj.get? o key.name = some v) :
    storedValue (getOverride o key.name) key = writtenValue key v := by
  unfold getOverride
  rw [hget]
  cases key with
  | defaultModel | defaultEffort =>
    obtain ⟨s, rfl⟩ := h
    cases s <;> rfl
  | timeoutMs | quotaPollIntervalMs =>
    obtain ⟨n, -, rfl⟩ := h
    rfl
  | maxConcurrent | maxQueueDepth =>
    obtain ⟨n, hn, rfl⟩ := h
    exact congrArg (Json.num ∘ Js.Num.fin) (max_eq_right hn)
  | enabled | autoFallbackModel =>
    obtain ⟨b, rfl⟩ := h
    rfl
  | permissionMode =>
    obtain ⟨m, rfl⟩ := h
    cases m <;> rfl

end Validation

/-! ### The patch of an accepted body -/

section Patch

variable {entries : Obj} {body : Option Json}

theorem sanitizeEntry_ok {entry definition : JsString × Json} (h : sanitizeEntry entry = .ok definition) :
    ∃ key v, entry.1 = key.name ∧ sanitizeSetting key entry.2 = .ok v ∧ definition = (entry.1, v) := by
  unfold sanitizeEntry at h
  split at h
  · next key hkey =>
    cases hv : sanitizeSetting key entry.2 with
    | error problem =>
      rw [hv] at h
      cases h
    | ok v =>
      rw [hv] at h
      exact ⟨key, v, WritableKey.ofName?_eq_some hkey, hv, (Except.ok.inj h).symm⟩
  · cases h

/-- Without a problem every entry is in the patch, and nothing else. -/
theorem sanitizeEntries_ok (h : (sanitizeEntries entries).1 = []) :
    (sanitizeEntries entries).2.map Prod.fst = entries.map Prod.fst ∧
      ∀ entry ∈ entries, ∃ key v, entry.1 = key.name ∧ sanitizeSetting key entry.2 = .ok v ∧
        (entry.1, v) ∈ (sanitizeEntries entries).2 := by
  induction entries with
  | nil => exact ⟨rfl, fun entry hentry => absurd hentry List.not_mem_nil⟩
  | cons entry entries ih =>
    unfold sanitizeEntries at h ⊢
    dsimp only at h ⊢
    cases hentry : sanitizeEntry entry with
    | error problem =>
      rw [hentry] at h
      cases h
    | ok definition =>
      rw [hentry] at h
      obtain ⟨hkeys, hall⟩ := ih h
      obtain ⟨key, v, hkey, hv, rfl⟩ := sanitizeEntry_ok hentry
      refine ⟨congrArg (entry.1 :: ·) hkeys, fun e he => ?_⟩
      rcases List.mem_cons.mp he with rfl | he
      · exact ⟨key, v, hkey, hv, List.mem_cons_self⟩
      · obtain ⟨key', v', hkey', hv', hmem⟩ := hall e he
        exact ⟨key', v', hkey', hv', List.mem_cons_of_mem _ hmem⟩

/-- An accepted body has the keys of an object: arrays and strings that are not empty name no setting. -/
theorem nodup_bodyEntries (hall : ∀ entry ∈ bodyEntries body, ∃ key : WritableKey, entry.1 = key.name) :
    ((bodyEntries body).map Prod.fst).Nodup := by
  have hzero : ∀ key : WritableKey, natDigits 0 ≠ key.name := by
    intro key
    cases key <;> decide +kernel
  unfold bodyEntries at hall ⊢
  cases hbody : settingsBody body with
  | obj o =>
    unfold objectEntries
    dsimp only
    rw [List.map_map]
    exact (Json.nodup_ownKeys o).map_on fun _ _ _ _ h => h
  | arr es =>
    rw [hbody] at hall
    cases es with
    | nil => exact List.nodup_nil
    | cons e es =>
      obtain ⟨key, hkey⟩ := hall (natDigits 0, e) List.mem_cons_self
      exact absurd hkey (hzero key)
  | str s =>
    rw [hbody] at hall
    cases s with
    | nil => exact List.nodup_nil
    | cons c s =>
      obtain ⟨key, hkey⟩ := hall (natDigits 0, .str [c]) List.mem_cons_self
      exact absurd hkey (hzero key)
  | null => exact List.nodup_nil
  | bool b => exact List.nodup_nil
  | num x => exact List.nodup_nil

end Patch

/-! ### The write -/

/-- The configuration without the keys an admin can write. -/
def GatewayConfig.otherKeys (cfg : GatewayConfig) : GatewayConfig :=
  { cfg with
    defaultModel := defaultConfig.defaultModel
    defaultEffort := defaultConfig.defaultEffort
    timeoutMs := defaultConfig.timeoutMs
    maxConcurrent := defaultConfig.maxConcurrent
    maxQueueDepth := defaultConfig.maxQueueDepth
    permissionMode := defaultConfig.permissionMode
    enabled := defaultConfig.enabled
    autoFallbackModel := defaultConfig.autoFallbackModel
    quotaPollIntervalMs := defaultConfig.quotaPollIntervalMs }

section Write

variable {env : ProcessEnv} {o o' : Obj} {body : Option Json} {key : WritableKey}

theorem effective_congr (hget : Obj.get? o' key.name = Obj.get? o key.name) :
    (resolveConfig env o').effective key = (resolveConfig env o).effective key := by
  rw [effective_eq, effective_eq]
  unfold getOverride
  rw [hget]

theorem otherKeys_resolveConfig
    (hget : ∀ k, k ∉ WRITABLE_KEYS.map WritableKey.name → Obj.get? o' k = Obj.get? o k) :
    (resolveConfig env o').otherKeys = (resolveConfig env o).otherKeys := by
  have hsame : ∀ k, k ∉ WRITABLE_KEYS.map WritableKey.name → getOverride o' k = getOverride o k := by
    intro k hk
    unfold getOverride
    rw [hget k hk]
  unfold GatewayConfig.otherKeys resolveConfig finishConfig applyEnv buildBase
  dsimp only
  rw [hsame (js "agyBin") (by decide +kernel), hsame (js "extraArgs") (by decide +kernel),
    hsame (js "contextWindowDefault") (by decide +kernel), hsame (js "maxTokensDefault") (by decide +kernel),
    hsame (js "modelsCacheTtlMs") (by decide +kernel), hsame (js "mediaDir") (by decide +kernel),
    hsame (js "mediaTtlMs") (by decide +kernel), hsame (js "mediaMaxBytes") (by decide +kernel),
    hsame (js "mediaMaxImages") (by decide +kernel), hsame (js "workspaceRoot") (by decide +kernel),
    hsame (js "fallbackModels") (by decide +kernel), hsame (js "rateLimitPerMinute") (by decide +kernel),
    hsame (js "logRetentionDays") (by decide +kernel), hsame (js "usageRetentionDays") (by decide +kernel),
    hsame (js "disableTelemetry") (by decide +kernel), hsame (js "dataDir") (by decide +kernel),
    hsame (js "port") (by decide +kernel), hsame (js "host") (by decide +kernel),
    hsame (js "adminAllowCidr") (by decide +kernel), hsame (js "adminPassword") (by decide +kernel),
    hsame (js "trustedProxies") (by decide +kernel), hsame (js "dbPath") (by decide +kernel),
    hsame (js "adminSessionTtlMs") (by decide +kernel), hsame (js "shutdownGraceMs") (by decide +kernel),
    hsame (js "webDist") (by decide +kernel)]

/-- What an accepted body with these entries makes of the object in the file. -/
structure Merged (env : ProcessEnv) (o o' entries : Obj) : Prop where
  kept : ∀ k, k ∉ entries.map Prod.fst → Obj.get? o' k = Obj.get? o k
  written : ∀ key value, (key.name, value) ∈ entries → ¬ EnvDecides env o key →
    ∃ v, sanitizeSetting key value = .ok v ∧ (resolveConfig env o').effective key = writtenValue key v
  others : ∀ key : WritableKey, key.name ∉ entries.map Prod.fst →
    (resolveConfig env o').effective key = (resolveConfig env o).effective key
  unwritable : (resolveConfig env o').otherKeys = (resolveConfig env o).otherKeys

/-- A refused body leaves the file, an accepted one is merged into it. -/
def SettingsRoundTrip (env : ProcessEnv) (o : Obj) (body : Option Json) : Prop :=
  ((putSettings env (some (.obj o)) body).statusCode ≠ 200 →
    (putSettings env (some (.obj o)) body).file = some (.obj o)) ∧
  ((putSettings env (some (.obj o)) body).statusCode = 200 →
    Merged env o (readOverrides (putSettings env (some (.obj o)) body).file) (bodyEntries body))

/-- The values of the keys that are not among the entries hold finite numbers only. -/
def KeptFinite (o entries : Obj) : Prop :=
  ∀ k v, k ∉ entries.map Prod.fst → Obj.get? o k = some v → v.allFinite = true

/-- The merged object written and read back. -/
theorem merged_iff {patch entries : Obj} (hkeys : patch.map Prod.fst = entries.map Prod.fst)
    (hnodup : (entries.map Prod.fst).Nodup) (hall : ∀ entry ∈ entries, ∃ (key : WritableKey) (v : Json),
      entry.1 = key.name ∧ sanitizeSetting key entry.2 = .ok v ∧ (entry.1, v) ∈ patch) :
    Merged env o (Json.reparsed.fields (o ++ patch)) entries ↔ KeptFinite o entries := by
  have hkept : ∀ k, k ∉ entries.map Prod.fst →
      Obj.get? (Json.reparsed.fields (o ++ patch)) k = (Obj.get? o k).map Json.reparsed := by
    intro k hk
    rw [Json.get?_reparsed_fields, Obj.get?_append, Obj.get?_eq_none (hkeys ▸ hk), Option.none_or]
  constructor
  · intro h k v hk hv
    have hsame := h.kept k hk
    rw [hkept k hk, hv, Option.map_some] at hsame
    exact (Json.reparsed_eq_iff v).mp (Option.some.inj hsame)
  · intro hfinite
    have hsame : ∀ k, k ∉ entries.map Prod.fst →
        Obj.get? (Json.reparsed.fields (o ++ patch)) k = Obj.get? o k := by
      intro k hk
      rw [hkept k hk]
      cases hv : Obj.get? o k with
      | none => rfl
      | some v => exact congrArg some ((Json.reparsed_eq_iff v).mpr (hfinite k v hk hv))
    refine ⟨hsame, ?_, fun key hkey => effective_congr (hsame key.name hkey), otherKeys_resolveConfig ?_⟩
    · intro key value hentry hfree
      obtain ⟨key', v, hname, hv, hmem⟩ := hall (key.name, value) hentry
      obtain rfl : key' = key := WritableKey.name_injective hname.symm
      have hstored := sanitizeSetting_ok hv
      have hget : Obj.get? (Json.reparsed.fields (o ++ patch)) key'.name = some v := by
        rw [Json.get?_reparsed_fields, Obj.get?_append, Obj.get?_eq_of_mem (hkeys ▸ hnodup) hmem, Option.some_or]
        exact congrArg some ((Json.reparsed_eq_iff v).mpr hstored.allFinite)
      have hnone : envDecision env key' = none := by
        rw [envDecides_iff] at hfree
        exact Option.not_isSome_iff_eq_none.mp hfree
      refine ⟨v, hv, ?_⟩
      rw [effective_eq, hnone]
      exact hstored.storedValue_eq hget
    · intro k hk
      refine hsame k fun hmem => hk ?_
      obtain ⟨entry, hentry, rfl⟩ := List.mem_map.mp hmem
      obtain ⟨key, v, hname, -, -⟩ := hall entry hentry
      exact List.mem_map.mpr ⟨key, mem_WRITABLE_KEYS key, hname.symm⟩

/-- An accepted body: its problems, its patch and the object written. -/
theorem putSettings_ok (env : ProcessEnv) (o : Obj) {patch : Obj} (h : sanitizeSettings (settingsBody body) = .ok patch) :
    (sanitizeEntries (bodyEntries body)).1 = [] ∧ patch = (sanitizeEntries (bodyEntries body)).2 ∧
      (putSettings env (some (.obj o)) body).statusCode = 200 ∧
      readOverrides (putSettings env (some (.obj o)) body).file =
        if patch = [] then o else Json.reparsed.fields (o ++ patch) := by
  have hput : putSettings env (some (.obj o)) body =
      ⟨200, none, some (settingsView env (writeOverridesPatch patch (some (.obj o)))),
        writeOverridesPatch patch (some (.obj o))⟩ := by
    unfold putSettings
    rw [h]
  unfold sanitizeSettings at h
  dsimp only at h
  split_ifs at h with herrors
  refine ⟨not_not.mp herrors, (Except.ok.inj h).symm, by rw [hput], ?_⟩
  rw [hput]
  unfold writeOverridesPatch
  dsimp only
  split
  · rfl
  · rw [Json.reparsed]
    rfl

/-- **Settings write**: refused, empty or merged; a kept value changes exactly when it holds a number that the
file cannot store. -/
theorem settingsRoundTrip_iff (env : ProcessEnv) (o : Obj) (body : Option Json) :
    SettingsRoundTrip env o body ↔
      (∃ error, sanitizeSettings (settingsBody body) = .error error) ∨ bodyEntries body = [] ∨
        KeptFinite o (bodyEntries body) := by
  cases hsan : sanitizeSettings (settingsBody body) with
  | error error =>
    have hput : putSettings env (some (.obj o)) body = ⟨400, some error, none, some (.obj o)⟩ := by
      unfold putSettings
      rw [hsan]
    refine iff_of_true ?_ (Or.inl ⟨error, rfl⟩)
    unfold SettingsRoundTrip
    rw [hput]
    exact ⟨fun _ => rfl, fun h => absurd h (by simp)⟩
  | ok patch =>
    obtain ⟨herrors, hpatch, hcode, hfile⟩ := putSettings_ok env o hsan
    obtain ⟨hkeys, hall⟩ := sanitizeEntries_ok herrors
    rw [← hpatch] at hkeys hall
    have hnodup : ((bodyEntries body).map Prod.fst).Nodup := nodup_bodyEntries fun entry hentry =>
      (hall entry hentry).imp fun key hkey => hkey.choose_spec.1
    have htrip : SettingsRoundTrip env o body ↔
        Merged env o (readOverrides (putSettings env (some (.obj o)) body).file) (bodyEntries body) := by
      unfold SettingsRoundTrip
      rw [hcode]
      exact ⟨fun h => h.2 rfl, fun h => ⟨fun hne => absurd rfl hne, fun _ => h⟩⟩
    rw [htrip, hfile]
    by_cases hempty : bodyEntries body = []
    · rw [hempty, List.map_nil, List.map_eq_nil_iff] at hkeys
      rw [if_pos hkeys, hempty]
      refine iff_of_true ⟨fun _ _ => rfl, ?_, fun _ _ => rfl, rfl⟩ (Or.inr (Or.inl rfl))
      intro key value hmem
      exact absurd hmem List.not_mem_nil
    · have hpatched : patch ≠ [] := by
        rintro rfl
        exact hempty (List.map_eq_nil_iff.mp hkeys.symm)
      rw [if_neg hpatched, merged_iff hkeys hnodup hall]
      constructor
      · exact fun h => Or.inr (Or.inr h)
      · rintro (⟨error, herror⟩ | h | h)
        · cases herror
        · exact absurd h hempty
        · exact h

/-- `{"timeoutMs": 1000}`. -/
def timeoutBody : Option Json := some (.obj [(js "timeoutMs", .num (.fin 1000))])

/-- A kept `{"note": 1e999}` is null after the write. -/
theorem settingsRoundTrip_infinite :
    ¬ SettingsRoundTrip (fun _ => none) [(js "note", .num (.inf false))] timeoutBody := by
  have hclean : (sanitizeEntries (bodyEntries timeoutBody)).1 = [] := by decide +kernel
  rw [settingsRoundTrip_iff]
  rintro (⟨error, herror⟩ | hempty | hfinite)
  · unfold sanitizeSettings at herror
    dsimp only at herror
    have hok := herror.symm.trans (if_neg (not_not.mpr hclean))
    cases hok
  · exact absurd (congrArg List.length hempty) (by decide +kernel)
  · exact absurd (hfinite (js "note") (.num (.inf false)) (by decide +kernel) rfl) (by simp [Json.allFinite])

end Write

end AgyProxy

import AgyProxy.Host.DispatchSpec
import AgyProxy.Server.KeyStoreSpec
import AgyProxy.Server.ModelGate

/-!
# AgyProxy.Server.ModelGateSpec — no process runs a model outside the key's whitelist

* `Settled`: a model the alias table maps to itself or to nothing; every served model is settled.
* `argsOf_namesOnly`: the argv selects the served model or none.
* `GateRequest.Sound`: what holds of a request in each of its phases; every step keeps it.
* `whitelist_enforced`: every slug an agy process was started with is in the whitelist the check read.
-/

namespace AgyProxy

open Js Lib

/-! ### The model between the request and the check -/

section Resolution

variable {cfg : StreamConfig} {model : JsString}

/-- Resolving the model again gives it back, or no model at all. -/
def Settled (model : JsString) : Prop := resolveModelSlug model = model ∨ resolveModelSlug model = []

theorem settled_resolve (model : JsString) : Settled (resolveModelSlug model) := Or.inl (resolveModelSlug_idem model)

/-- Only a blank slug resolves to nothing. -/
theorem trim_of_resolve_nil (h : resolveModelSlug model = []) : trim model = [] := by
  unfold resolveModelSlug at h
  dsimp only at h
  split_ifs at h with h₁ h₂ h₃
  · exact absurd h (by decide)
  · exact absurd h (by decide)
  · exact absurd h (by decide)
  · exact h

theorem orDefault_of_ne (h : model ≠ []) : orDefault cfg model = model := if_neg h

/-- The default stands in once. -/
theorem orDefault_idem (cfg : StreamConfig) (model : JsString) :
    orDefault cfg (orDefault cfg model) = orDefault cfg model := by
  by_cases h : model = []
  · have hdefault : orDefault cfg model = cfg.defaultModel := if_pos h
    rw [hdefault]
    exact ite_self _
  · rw [orDefault_of_ne h, orDefault_of_ne h]

/-- A blank model reaches the engine only as the configured default. -/
theorem requestModel_blank {p : Protocol} {catalog : Catalog} {b : BodyModel}
    (h : requestModel p cfg catalog b = .ok model) (hblank : trim model = []) : model = cfg.defaultModel := by
  cases b with
  | notString => exact nomatch h
  | absent =>
    simp only [requestModel] at h
    split_ifs at h
    exact (Except.ok.inj h).symm
  | text s =>
    simp only [requestModel] at h
    split_ifs at h with hs
    obtain rfl := Except.ok.inj h
    exact absurd hblank hs

/-- What the adapter lets through resolves to a settled model. -/
theorem requestModel_settled {p : Protocol} {catalog : Catalog} {b : BodyModel}
    (h : requestModel p cfg catalog b = .ok model) : Settled (orDefault cfg (resolveModelSlug model)) := by
  by_cases hnil : resolveModelSlug model = []
  · have hdefault : model = cfg.defaultModel := requestModel_blank h (trim_of_resolve_nil hnil)
    rw [hnil]
    show Settled cfg.defaultModel
    exact Or.inr (hdefault ▸ hnil)
  · rw [orDefault_of_ne hnil]
    exact settled_resolve model

theorem fallback_settled : ∀ fb ∈ fallbackSlugs, fb ≠ [] ∧ resolveModelSlug fb = fb := by decide +kernel

/-- Neither the account selection nor the fallback switch unsettles the model. -/
theorem serve_settled {pool : PoolAnswers} {served : Served} (hmodel : Settled (orDefault cfg model))
    (h : serve cfg pool model = .ok served) : Settled (orDefault cfg served.activeModel) := by
  have hkept : Settled (orDefault cfg (orDefault cfg model)) := (orDefault_idem cfg model).symm ▸ hmodel
  unfold serve at h
  dsimp only at h
  split at h
  · obtain rfl := Except.ok.inj h
    exact hkept
  · split_ifs at h
    · obtain rfl := Except.ok.inj h
      exact hkept
    · split at h
      next switched hswitched =>
        obtain rfl := Except.ok.inj h
        obtain ⟨fb, hfb, hsome⟩ := List.exists_of_findSome?_eq_some hswitched
        obtain ⟨id, -, rfl⟩ := Option.map_eq_some_iff.mp hsome
        obtain ⟨hne, hfixed⟩ := fallback_settled fb hfb
        show Settled (orDefault cfg fb)
        rw [orDefault_of_ne hne]
        exact Or.inl hfixed
      next => simp at h

end Resolution

/-! ### The model between the check and the process -/

section Argv

variable {model : JsString}

/-- `extraArgs` selects no model. -/
def NoModelArg (words : List JsString) : Prop := ∀ w ∈ words, ¬js "--model" <+: w

theorem slugsOfWords_of_noModelArg : ∀ {words : List JsString}, NoModelArg words → slugsOfWords words = []
  | [], _ => rfl
  | word :: rest, h => by
    have hword : ¬js "--model" <+: word := h word List.mem_cons_self
    have hne : word ≠ js "--model" := fun heq => hword (heq ▸ List.prefix_rfl)
    have heq : ¬js "--model=" <+: word := fun hpre => hword (List.IsPrefix.trans (by decide) hpre)
    have hrest : slugsOfWords rest = [] := slugsOfWords_of_noModelArg fun w hw => h w (List.mem_cons_of_mem word hw)
    unfold slugsOfWords
    rw [if_neg hne, if_neg heq, hrest]
    rfl

/-- The only model these arguments select, if any. -/
def NamesOnly (model : JsString) (args : List CliArg) : Prop :=
  ∀ arg ∈ args, ∀ slug ∈ arg.modelSlugs, slug = model ∧ slug ≠ []

theorem namesOnly_append {as bs : List CliArg} (ha : NamesOnly model as) (hb : NamesOnly model bs) :
    NamesOnly model (as ++ bs) :=
  List.forall_mem_append.mpr ⟨ha, hb⟩

theorem namesOnly_of_none {args : List CliArg} (h : ∀ arg ∈ args, arg.modelSlugs = []) : NamesOnly model args := by
  intro arg harg slug hslug
  rw [h arg harg] at hslug
  exact absurd hslug List.not_mem_nil

theorem option_slugs {name : JsString} (value : JsString) (h : name ≠ js "--model") :
    (CliArg.option name value).modelSlugs = [] := if_neg h

theorem optionArg_slugs {name : JsString} (value : Option JsString) (h : name ≠ js "--model") :
    ∀ arg ∈ optionArg name value, arg.modelSlugs = [] := by
  intro arg harg
  obtain ⟨v, -, rfl⟩ := Option.map_eq_some_iff.mp (Option.mem_toList.mp harg)
  exact option_slugs v h

theorem modelArg_namesOnly (model : JsString) : NamesOnly model (optionArg (js "--model") (some model)) := by
  intro arg harg slug hslug
  obtain ⟨v, hv, rfl⟩ := Option.map_eq_some_iff.mp (Option.mem_toList.mp harg)
  obtain ⟨hsome, hne⟩ := Option.filter_eq_some_iff.mp hv
  obtain rfl : slug = v := List.mem_singleton.mp hslug
  exact ⟨(Option.some.inj hsome).symm, fun hnil => by simp [hnil] at hne⟩

/-- **The argv** names the resolved slug of the model, if any. -/
theorem buildArgs_namesOnly {opts : ArgsInput} (hextra : NoModelArg opts.extraArgs) :
    NamesOnly (resolveModelSlug opts.model) (buildArgs opts) := by
  unfold buildArgs
  refine namesOnly_append (namesOnly_append (namesOnly_append (namesOnly_append (namesOnly_append ?_
    (modelArg_namesOnly _)) ?_) ?_) ?_) ?_
  · have hmode : (permissionArg opts.permissionMode).modelSlugs = [] := by
      cases opts.permissionMode with
      | skip => rfl
      | plan => exact option_slugs _ (by decide)
      | acceptEdits => exact option_slugs _ (by decide)
    refine namesOnly_of_none (List.forall_mem_cons.mpr ⟨option_slugs _ (by decide), ?_⟩)
    exact List.forall_mem_cons.mpr ⟨option_slugs _ (by decide), List.forall_mem_singleton.mpr hmode⟩
  · exact namesOnly_of_none (optionArg_slugs _ (by decide))
  · exact namesOnly_of_none (optionArg_slugs _ (by decide))
  · refine namesOnly_of_none fun arg harg => ?_
    obtain ⟨dir, -, rfl⟩ := List.mem_map.mp harg
    exact option_slugs dir (by decide)
  · have hextras : (CliArg.extra opts.extraArgs).modelSlugs = [] := slugsOfWords_of_noModelArg hextra
    refine namesOnly_of_none (List.forall_mem_cons.mpr ⟨hextras, ?_⟩)
    exact List.forall_mem_singleton.mpr (option_slugs _ (by decide))

theorem argsOf_namesOnly {cfg : StreamConfig} (hextra : NoModelArg cfg.extraArgs) (effort : Option JsString)
    (served : Served) (input : DispatchInput) :
    NamesOnly (resolveModelSlug (orDefault cfg served.activeModel)) (GateRequest.argsOf cfg effort served input) := by
  refine namesOnly_append (buildArgs_namesOnly hextra) (namesOnly_of_none fun arg harg => ?_)
  obtain ⟨file, -, rfl⟩ := Option.map_eq_some_iff.mp (Option.mem_toList.mp harg)
  exact option_slugs file (by decide)

end Argv

/-! ### One request -/

section Request

/-- The whitelist the check read has the model, if it restricts any. -/
def Permits (whitelist : Option (List JsString)) (model : JsString) : Prop :=
  ∀ allowed, whitelist = some allowed → allowed ≠ [] → model ∈ allowed

theorem permits_of_check {whitelist : Option (List JsString)} {model : JsString}
    (h : whitelistCheck whitelist model = none) : Permits whitelist model := by
  rintro allowed rfl hne
  simp only [whitelistCheck] at h
  split_ifs at h with hrefused
  by_contra hmem
  exact hrefused ⟨hne, hmem⟩

/-- What holds of a request in a phase. -/
def GatePhase.Sound (cfg : StreamConfig) (whitelist : Option (List JsString)) : GatePhase → Prop
  | .waiting model _ => Settled (orDefault cfg model)
  | .checked _ _ served =>
    Settled (orDefault cfg served.activeModel) ∧ Permits whitelist (orDefault cfg served.activeModel)
  | .dispatching args _ =>
    NoModelArg cfg.extraArgs → ∀ arg ∈ args, ∀ slug ∈ arg.modelSlugs, Permits whitelist slug
  | _ => True

namespace GateRequest

def Sound (r : GateRequest) : Prop := r.phase.Sound r.api.config r.whitelist

theorem streamHead_sound {api : ApiRequest} {rawModel : JsString} (whitelist : Option (List JsString))
    (h : Settled (orDefault api.config (resolveModelSlug rawModel))) :
    (streamHead api rawModel).Sound api.config whitelist := by
  unfold streamHead
  split_ifs
  · exact trivial
  · exact trivial
  · cases chooseEffort api.config api.catalog (resolveModelSlug rawModel) api.reasoningEffort with
    | error e => exact trivial
    | ok effort => exact h

theorem arrive_sound (api : ApiRequest) : (arrive api).Sound := by
  unfold Sound arrive
  dsimp only
  cases hmodel : requestModel api.protocol api.config api.catalog api.bodyModel with
  | error refusal => exact trivial
  | ok rawModel => exact streamHead_sound none (requestModel_settled hmodel)

/-- What the cache answers is what is stored. -/
theorem getScopes_eq {keys : KeyStore} (h : keys.CacheCoherent) (keyId : Option JsString) :
    (getScopes keys keyId).1 = storedWhitelist keys keyId := by
  cases keyId with
  | none => rfl
  | some id => exact CacheCoherent.scopesOf_eq h id

theorem whitelisted_sound {cfg : StreamConfig} {model : JsString} {effort : Option JsString} {served : Served}
    {allowedModels : Option (List JsString)} (h : Settled (orDefault cfg served.activeModel)) :
    (whitelisted cfg model effort served allowedModels).Sound cfg allowedModels := by
  unfold whitelisted
  cases hcheck : whitelistCheck allowedModels (orDefault cfg served.activeModel) with
  | some e => exact trivial
  | none => exact ⟨h, permits_of_check hcheck⟩

theorem check_sound {r : GateRequest} {keys : KeyStore} {pool : PoolAnswers} {out : GateRequest × KeyStore}
    (hr : r.Sound) (hkeys : keys.CacheCoherent) (h : r.check keys pool = some out) : out.1.Sound := by
  unfold check at h
  split at h
  next model effort hphase =>
    have hmodel : Settled (orDefault r.api.config model) := by
      unfold Sound at hr
      rw [hphase] at hr
      exact hr
    split at h
    next e hserve =>
      obtain rfl := Option.some.inj h
      exact trivial
    next served hserve =>
      obtain rfl := Option.some.inj h
      show (whitelisted r.api.config model effort served (getScopes keys (truthy? r.api.keyId)).1).Sound
        r.api.config (storedWhitelist keys (truthy? r.api.keyId))
      rw [← getScopes_eq hkeys]
      exact whitelisted_sound (serve_settled hmodel hserve)
  next => exact nomatch h

theorem throws_sound {r r' : GateRequest} {e : EngineError} (h : r.throws e = some r') : r'.Sound := by
  unfold throws at h
  split at h
  · obtain rfl := Option.some.inj h
    exact trivial
  · obtain rfl := Option.some.inj h
    exact trivial
  · exact nomatch h

/-- The argv of a checked request selects no other model than the one checked. -/
theorem begin_sound {r r' : GateRequest} {input : DispatchInput} {runId : RunId} (hr : r.Sound)
    (h : r.begin input runId = some r') : r'.Sound := by
  unfold begin at h
  split at h
  next model effort served hphase =>
    obtain rfl := Option.some.inj h
    unfold Sound at hr
    rw [hphase] at hr
    obtain ⟨hsettled, hpermits⟩ := hr
    intro hextra arg harg slug hslug
    obtain ⟨heq, hne⟩ := argsOf_namesOnly hextra effort served input arg harg slug hslug
    -- the second resolution changes nothing, or there is no slug at all
    rcases hsettled with hfixed | hnil
    · rw [heq, hfixed]
      exact hpermits
    · exact absurd (heq.trans hnil) hne
  next => exact nomatch h

theorem act_sound {stack : ℕ} {r r' : GateRequest} {a : DispatchAction} (hr : r.Sound)
    (h : r.act stack a = some r') : r'.Sound := by
  unfold act at h
  split at h
  next args d hphase =>
    obtain ⟨d', -, rfl⟩ := Option.map_eq_some_iff.mp h
    unfold Sound at hr
    rw [hphase] at hr
    exact hr
  next => exact nomatch h

end GateRequest

end Request

/-! ### The runs -/

section Runs

variable {c : KeyCrypto} {stack : ℕ}

namespace ModelGate

structure Sound (s : ModelGate) : Prop where
  keys : s.keys.CacheCoherent
  requests : ∀ r ∈ s.requests, r.Sound

/-- A sound step of one request. -/
theorem Sound.set {s : ModelGate} {i : ℕ} {r' : GateRequest} {keys : KeyStore} (h : s.Sound) (hkeys : keys.CacheCoherent)
    (hr' : r'.Sound) : Sound ⟨keys, s.requests.set i r'⟩ := by
  refine ⟨hkeys, fun r hr => ?_⟩
  rcases List.mem_or_eq_of_mem_set hr with hmem | rfl
  · exact h.requests r hmem
  · exact hr'

theorem onRequest_sound {s s' : ModelGate} {i : ℕ} {f : GateRequest → Option GateRequest} (hs : s.Sound)
    (hf : ∀ r r', r.Sound → f r = some r' → r'.Sound) (h : s.onRequest i f = some s') : s'.Sound := by
  obtain ⟨r, hr, h⟩ := Option.bind_eq_some_iff.mp h
  obtain ⟨r', hfr, rfl⟩ := Option.map_eq_some_iff.mp h
  exact hs.set hs.keys (hf r r' (hs.requests r (List.mem_of_getElem? hr)) hfr)

theorem check_keys {r : GateRequest} {keys : KeyStore} {pool : PoolAnswers} {out : GateRequest × KeyStore}
    (c : KeyCrypto) (hkeys : keys.CacheCoherent) (h : r.check keys pool = some out) : out.2.CacheCoherent := by
  unfold GateRequest.check at h
  split at h
  next model effort hphase =>
    split at h
    next e hserve =>
      obtain rfl := Option.some.inj h
      exact hkeys
    next served hserve =>
      obtain rfl := Option.some.inj h
      show (getScopes keys (truthy? r.api.keyId)).2.CacheCoherent
      cases truthy? r.api.keyId with
      | none => exact hkeys
      | some id => exact CacheCoherent.step c hkeys (.scopesOf id)
  next => exact nomatch h

/-- The step lemma. -/
theorem step_sound (s : ModelGate) (a : GateAction) (s' : ModelGate) (hs : s.Sound)
    (h : s.step c stack a = some s') : s'.Sound := by
  cases a with
  | keys a =>
    obtain rfl := Option.some.inj h
    exact ⟨CacheCoherent.step c hs.keys a, hs.requests⟩
  | arrive api =>
    obtain rfl := Option.some.inj h
    refine ⟨hs.keys, fun r hr => ?_⟩
    rcases List.mem_append.mp hr with hr | hr
    · exact hs.requests r hr
    · rw [List.mem_singleton.mp hr]
      exact GateRequest.arrive_sound api
  | check i pool =>
    obtain ⟨r, hr, h⟩ := Option.bind_eq_some_iff.mp h
    obtain ⟨out, hout, rfl⟩ := Option.map_eq_some_iff.mp h
    have hsound : r.Sound := hs.requests r (List.mem_of_getElem? hr)
    exact hs.set (check_keys c hs.keys hout) (GateRequest.check_sound hsound hs.keys hout)
  | throws i e => exact onRequest_sound hs (fun _ _ _ hf => GateRequest.throws_sound hf) h
  | begin i input runId => exact onRequest_sound hs (fun _ _ hr hf => GateRequest.begin_sound hr hf) h
  | act i a => exact onRequest_sound hs (fun _ _ hr hf => GateRequest.act_sound hr hf) h

/-- The run lemma. -/
theorem run_sound {masterKey : Option JsString} {table : KeyTable} {as : List GateAction} {s : ModelGate}
    (h : exec (step c stack) (init (.init masterKey table)) as = some s) : s.Sound := by
  have hinit : (init (.init masterKey table)).Sound := by
    refine ⟨fun id hit hhit => ?_, fun r hr => ?_⟩
    · exact nomatch hhit
    · exact absurd hr List.not_mem_nil
  exact exec_invariant' step_sound as _ s hinit h

end ModelGate

/-- **The whitelist is enforced**: whatever the body, the configuration, the catalog, the pool, the edits of
the keys and the retries, a process is started with no `--model` outside the whitelist the key had when it
was checked. -/
theorem whitelist_enforced {masterKey : Option JsString} {table : KeyTable} {as : List GateAction} {s : ModelGate}
    (h : exec (ModelGate.step c stack) (.init (.init masterKey table)) as = some s) {r : GateRequest}
    (hr : r ∈ s.requests) (hextra : NoModelArg r.api.config.extraArgs) {allowed : List JsString}
    (hwhitelist : r.whitelist = some allowed) (hne : allowed ≠ []) :
    ∀ args ∈ r.spawnedArgs, ∀ arg ∈ args, ∀ slug ∈ arg.modelSlugs, slug ∈ allowed := by
  have hsound : r.Sound := (ModelGate.run_sound h).requests r hr
  intro args hargs arg harg slug hslug
  unfold GateRequest.spawnedArgs at hargs
  split at hargs
  next args' d hphase =>
    obtain ⟨-, -, rfl⟩ := List.mem_map.mp hargs
    unfold GateRequest.Sound at hsound
    rw [hphase] at hsound
    exact hsound hextra arg harg slug hslug allowed hwhitelist hne
  next => exact absurd hargs List.not_mem_nil

/-! ### An alias, a whitelist edited behind the check and a retry -/

def opusKeyRow : KeyRow where
  id := js "key_00000001"
  name := js "default"
  keyHash := js "00"
  shownPrefix := js "AAAAAAAA"
  createdAt := 1000
  disabledAt := none
  dailyTokenLimit := 0
  rpmLimit := 0
  scopes := some (js "claude-opus-4-6-thinking, gemini-3.5-flash")
  lastUsedAt := none
  secretEnc := none

def opusTable : KeyTable := ⟨[opusKeyRow], List.nodup_singleton _, List.nodup_singleton _⟩

def opusRequest : ApiRequest where
  protocol := .anthropic
  keyId := some (js "key_00000001")
  bodyModel := .text (js " Claude-Opus ")
  messages := [⟨.user, js "hi", none⟩]
  reasoningEffort := none
  config := ⟨js "gemini-3.6-flash", [], true, .plan, 300000, []⟩
  catalog := ⟨.fallback, []⟩
  binFound := true

def opusRun : List GateAction :=
  [.arrive opusRequest, .check 0 ⟨false, fun _ _ => none, fun _ => none⟩,
    .keys (.update (js "key_00000001") ⟨none, none, none, none, some (some (js "gemini-3.5-flash"))⟩ 2000),
    .begin 0 ⟨js "hi", [], none, none, [], ⟨none, some (js "key_00000001"), .anthropic⟩⟩ dispatchRunId,
    .act 0 (.taskTurn .spawned), .act 0 (.exit ⟨some 1, none, 900, none⟩), .act 0 (.delayEnds .noAccounts),
    .act 0 (.taskTurn .spawned)]

set_option synthInstance.maxSize 1000 in
/-- Both attempts run the model of the alias, which the whitelist had when it was checked. -/
theorem whitelist_enforced_opus : ∃ s r allowed,
    exec (ModelGate.step sampleCrypto 10000) (.init (.init none opusTable)) opusRun = some s ∧ s.requests = [r] ∧
      r.whitelist = some allowed ∧
      r.spawnedArgs.map (fun args => args.flatMap CliArg.modelSlugs) =
        [[js "claude-opus-4-6-thinking"], [js "claude-opus-4-6-thinking"]] ∧
      ∀ args ∈ r.spawnedArgs, ∀ arg ∈ args, ∀ slug ∈ arg.modelSlugs, slug ∈ allowed := by
  have hrun : (exec (ModelGate.step sampleCrypto 10000) (.init (.init none opusTable)) opusRun).map
      (fun s => s.requests.map fun r =>
        (r.whitelist, r.spawnedArgs.map fun args => args.flatMap CliArg.modelSlugs, r.api.config.extraArgs)) =
      some [(some [js "claude-opus-4-6-thinking", js "gemini-3.5-flash"],
        [[js "claude-opus-4-6-thinking"], [js "claude-opus-4-6-thinking"]], [])] := by decide +kernel
  obtain ⟨s, hs, hview⟩ := Option.map_eq_some_iff.mp hrun
  obtain ⟨r, hr, hview⟩ := List.map_eq_singleton_iff.mp hview
  obtain ⟨hwhitelist, hview⟩ := Prod.mk.inj hview
  obtain ⟨hslugs, hextra⟩ := Prod.mk.inj hview
  refine ⟨s, r, _, hs, hr, hwhitelist, hslugs, ?_⟩
  refine whitelist_enforced hs (hr ▸ List.mem_singleton_self r) ?_ hwhitelist (by simp)
  rw [hextra]
  exact fun w hw => absurd hw List.not_mem_nil

end Runs

end AgyProxy

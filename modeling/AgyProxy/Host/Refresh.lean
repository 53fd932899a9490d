import AgyProxy.Host.ModelList
import AgyProxy.Lib.SingleFlight

/-!
# AgyProxy.Host.Refresh — quota cycles and model discoveries (`src/host/quota.ts`, `src/host/models.ts`)

* `refreshAllQuotas`: overlapping callers ride the running cycle; a force caller then runs its own.
* `ModelCatalog`: `refreshIfNeeded` and `forceRefresh` over one latch; `refresh` and what it leaves in `current`.

Both are programs over the latch that holds the promise in flight.  Flights do not reject: a cycle settles
all its accounts, `refresh` catches.
-/

namespace AgyProxy

open Js Lib

/-! ### Quota cycles -/

/-- Where a caller of `refreshAllQuotas` waits. -/
inductive QuotaFrame
  /-- `await running` -/
  | rode (force : Bool)
  /-- `await started` -/
  | joined
  /-- `await cycle` -/
  | cycle

/-- `refreshAllQuotas(force)`; a cycle is full when it is a force cycle. -/
def refreshAllQuotas : LatchProgram Bool QuotaFrame Unit Unit Unit Unit where
  enter _ refreshAllCycle force :=
    match refreshAllCycle with
    | some running => .ride running (.rode force)
    | none => .start force .cycle
  resume _ refreshAllCycle _ frame :=
    match frame with
    | .rode force =>
      if !force then .ret ()
      else
        match refreshAllCycle with
        | some started => .ride started .joined
        | none => .start force .cycle
    | .joined => .ret ()
    | .cycle => .ret ()
  release cycle refreshAllCycle := if refreshAllCycle = some cycle then none else refreshAllCycle
  land _ _ := ((), ())

/-! ### Model discovery -/

/-- `Catalog` with its age and its last error. -/
structure CatalogState extends Catalog where
  discoveredAt : ℕ
  lastError : Option JsString

/-- What `agy models` printed, or why it failed, and the time. -/
structure Discovery where
  now : ℕ
  result : Except JsString JsString

inductive RefreshOutcome
  | ok | failed
deriving DecidableEq

def newModelCatalog (fallbackDefs : List Json) : CatalogState where
  source := .fallback
  models := buildFallbackCatalog fallbackDefs
  discoveredAt := 0
  lastError := none

def CatalogState.refresh (current : CatalogState) (d : Discovery) : CatalogState × RefreshOutcome :=
  match d.result with
  | .ok stdout =>
    let raw := parseModelsOutput stdout
    if raw ≠ [] then (⟨⟨.discovered, foldEfforts raw⟩, d.now, none⟩, .ok)
    else ({ current with lastError := some (js "agy models returned no entries") }, .failed)
  | .error message => ({ current with lastError := some message }, .failed)

inductive CatalogCall
  | refreshIfNeeded (now : ℕ)
  | forceRefresh

def CatalogCall.isForce : CatalogCall → Bool
  | refreshIfNeeded _ => false
  | forceRefresh => true

inductive CatalogReply
  | fresh
  | refreshed (outcome : RefreshOutcome)
  | catalog (current : CatalogState)

/-- Where a caller waits for `this.refreshing`. -/
inductive CatalogFrame
  /-- `return this.refreshing` -/
  | shared
  /-- the first `await` of `forceRefresh` -/
  | rode
  /-- its last -/
  | joined

/-- `refreshIfNeeded` and `forceRefresh`; every discovery is full. -/
def modelCatalog (ttlMs : ℚ) :
    LatchProgram CatalogCall CatalogFrame CatalogReply CatalogState Discovery RefreshOutcome where
  enter current refreshing call :=
    match call, refreshing with
    | .refreshIfNeeded _, some cycle => .ride cycle .shared
    | .refreshIfNeeded now, none =>
      let age := (now : ℚ) - current.discoveredAt
      if current.source = .discovered ∧ age < ttlMs then .ret .fresh else .start true .shared
    | .forceRefresh, some cycle => .ride cycle .rode
    | .forceRefresh, none => .start true .joined
  resume current refreshing outcome frame :=
    match frame with
    | .shared => .ret (.refreshed outcome)
    | .rode =>
      match refreshing with
      | some cycle => .ride cycle .joined
      | none => .start true .joined
    | .joined => .ret (.catalog current)
  release _ _ := none
  land := CatalogState.refresh

/-! ### They keep their promise -/

/-- The callers of `refreshAllQuotas` that still owe a force pass. -/
def QuotaFrame.owes : QuotaFrame → Bool
  | rode force => force
  | joined => false
  | cycle => false

theorem refreshAllQuotas_sound : refreshAllQuotas.Sound (fun force => force) QuotaFrame.owes where
  enter_free _ force := Or.inr ⟨force, .cycle, rfl, fun h => h⟩
  enter_latched _ _ force := Or.inr ⟨.rode force, rfl, fun h => h⟩
  resume_quit _ latch _ frame howes := by
    refine ⟨(), ?_⟩
    cases frame with
    | rode force =>
      obtain rfl : force = false := howes
      rfl
    | joined => rfl
    | cycle => rfl
  resume_free _ _ frame howes := by
    cases frame with
    | rode force =>
      obtain rfl : force = true := howes
      exact ⟨.cycle, rfl⟩
    | joined => exact nomatch howes
    | cycle => exact nomatch howes
  resume_latched _ _ _ frame howes := by
    cases frame with
    | rode force =>
      obtain rfl : force = true := howes
      exact ⟨.joined, rfl⟩
    | joined => exact nomatch howes
    | cycle => exact nomatch howes
  release k := if_pos rfl

def CatalogFrame.owes : CatalogFrame → Bool
  | shared => false
  | rode => true
  | joined => false

theorem modelCatalog_sound (ttlMs : ℚ) : (modelCatalog ttlMs).Sound CatalogCall.isForce CatalogFrame.owes where
  enter_free current call := by
    cases call with
    | forceRefresh => exact Or.inr ⟨true, .joined, rfl, fun _ => rfl⟩
    | refreshIfNeeded now =>
      by_cases hfresh : current.source = .discovered ∧ (now : ℚ) - current.discoveredAt < ttlMs
      · exact Or.inl ⟨.fresh, if_pos hfresh, rfl⟩
      · exact Or.inr ⟨true, .shared, if_neg hfresh, fun _ => rfl⟩
  enter_latched current k call := by
    cases call with
    | forceRefresh => exact Or.inr ⟨.rode, rfl, fun _ => rfl⟩
    | refreshIfNeeded now => exact Or.inr ⟨.shared, rfl, fun h => nomatch h⟩
  resume_quit current latch outcome frame howes := by
    cases frame with
    | shared => exact ⟨.refreshed outcome, rfl⟩
    | rode => exact nomatch howes
    | joined => exact ⟨.catalog current, rfl⟩
  resume_free current outcome frame howes := by
    cases frame with
    | shared => exact nomatch howes
    | rode => exact ⟨.joined, rfl⟩
    | joined => exact nomatch howes
  resume_latched current k outcome frame howes := by
    cases frame with
    | shared => exact nomatch howes
    | rode => exact ⟨.joined, rfl⟩
    | joined => exact nomatch howes
  release k := rfl

/-! ### What is never lost -/

/-- The models a discovery found. -/
def Discovery.found? (d : Discovery) : Option (List CatalogEntry) :=
  match d.result with
  | .ok stdout => if parseModelsOutput stdout ≠ [] then some (foldEfforts (parseModelsOutput stdout)) else none
  | .error _ => none

/-- The models of the last discovery that found any. -/
def lastFound? (landed : List Discovery) : Option (List CatalogEntry) := landed.reverse.findSome? Discovery.found?

/-- The models of the last discovery that found any, else those of `start`. -/
def Catalog.retained (start : Catalog) (landed : List Discovery) : Catalog :=
  match lastFound? landed with
  | some models => ⟨.discovered, models⟩
  | none => start

/-- A discovery that finds nothing leaves the models alone. -/
theorem toCatalog_refresh (current : CatalogState) (d : Discovery) :
    (current.refresh d).1.toCatalog = current.toCatalog.retained [d] := by
  unfold CatalogState.refresh Catalog.retained lastFound? Discovery.found?
  cases hresult : d.result with
  | error message => simp [hresult]
  | ok stdout =>
    by_cases hraw : parseModelsOutput stdout = []
    · simp [hresult, hraw]
    · simp [hresult, hraw]

theorem retained_cons (start : Catalog) (d : Discovery) (landed : List Discovery) :
    start.retained (d :: landed) = (start.retained [d]).retained landed := by
  have hlast : lastFound? (d :: landed) = (lastFound? landed).or d.found? := by
    unfold lastFound?
    rw [List.reverse_cons, List.findSome?_append]
    simp
  unfold Catalog.retained
  rw [hlast]
  cases lastFound? landed with
  | some models => rfl
  | none => simp [lastFound?]

theorem toCatalog_foldl : ∀ (landed : List Discovery) (current : CatalogState),
    (landed.foldl (fun current d => (current.refresh d).1) current).toCatalog = current.toCatalog.retained landed
  | [], _ => rfl
  | d :: landed, current => by
    rw [List.foldl_cons, toCatalog_foldl landed, toCatalog_refresh, ← retained_cons]

/-! ### Every interleaving -/

/-- **Single flight**: at most one cycle and one discovery run at a time, a force caller returns only after a
full pass that began after its call, and the catalog shows what was last discovered. -/
theorem refresh_singleFlight (quotaActions : List (FlightAction Bool Unit))
    (quota : FlightState Bool QuotaFrame Unit Unit Unit)
    (hquota : exec (flightStep refreshAllQuotas) (FlightState.init ()) quotaActions = some quota)
    (ttlMs : ℚ) (fallbackDefs : List Json) (catalogActions : List (FlightAction CatalogCall Discovery))
    (catalog : FlightState CatalogCall CatalogFrame CatalogReply CatalogState RefreshOutcome)
    (hcatalog : exec (flightStep (modelCatalog ttlMs)) (FlightState.init (newModelCatalog fallbackDefs))
      catalogActions = some catalog) :
    (quota.running.length ≤ 1 ∧ Honoured (fun force => force) quota.trace) ∧
      (catalog.running.length ≤ 1 ∧ Honoured CatalogCall.isForce catalog.trace) ∧
      catalog.data.toCatalog = (newModelCatalog fallbackDefs).toCatalog.retained (payloads catalogActions) := by
  have hquotaInv := FlightInv.exec refreshAllQuotas_sound hquota
  have hcatalogInv := FlightInv.exec (modelCatalog_sound ttlMs) hcatalog
  refine ⟨⟨hquotaInv.running_le_one, hquotaInv.honoured⟩, ⟨hcatalogInv.running_le_one, hcatalogInv.honoured⟩, ?_⟩
  rw [data_of_exec catalogActions hcatalog]
  exact toCatalog_foldl (payloads catalogActions) (newModelCatalog fallbackDefs)

/-- Two force callers ride a poll; the first runs the force cycle and the second joins it. -/
def quotaRiders : List (FlightAction Bool Unit) :=
  [.call false, .call true, .call true, .settle 1 (), .resume, .resume, .resume, .settle 6 (), .resume, .resume]

/-- A force caller rides a discovery that finds a model; its own pass fails. -/
def catalogRiders : List (FlightAction CatalogCall Discovery) :=
  [.call (.refreshIfNeeded 1000), .call .forceRefresh, .settle 1 ⟨1200, .ok (js "m1")⟩, .resume, .resume,
    .settle 5 ⟨1500, .error (js "Please sign in")⟩, .resume]

theorem refresh_singleFlight_riders : ∃ quota catalog,
    exec (flightStep refreshAllQuotas) (FlightState.init ()) quotaRiders = some quota ∧
    exec (flightStep (modelCatalog 300000)) (FlightState.init (newModelCatalog [])) catalogRiders = some catalog ∧
    (quota.running.length ≤ 1 ∧ Honoured (fun force => force) quota.trace) ∧
      (catalog.running.length ≤ 1 ∧ Honoured CatalogCall.isForce catalog.trace) ∧
      catalog.data.toCatalog = (newModelCatalog []).toCatalog.retained (payloads catalogRiders) := by
  have hquota : (exec (flightStep refreshAllQuotas) (FlightState.init ()) quotaRiders).isSome = true := by
    decide +kernel
  have hcatalog : (exec (flightStep (modelCatalog 300000)) (FlightState.init (newModelCatalog []))
      catalogRiders).isSome = true := by
    decide +kernel
  obtain ⟨quota, hquota⟩ := Option.isSome_iff_exists.mp hquota
  obtain ⟨catalog, hcatalog⟩ := Option.isSome_iff_exists.mp hcatalog
  exact ⟨quota, catalog, hquota, hcatalog,
    refresh_singleFlight quotaRiders quota hquota 300000 [] catalogRiders catalog hcatalog⟩

end AgyProxy

import AgyProxy.Common.Config
import AgyProxy.Host.Models
import AgyProxy.Host.Pool

/-!
# AgyProxy.Host.Quota — from the answers of the quota endpoints to the quotas of the families (`src/host/quota.ts`)

* `summaryQuotas`: the 5-hour and the weekly window of every group of the quota summary.
* `ingestModel`: one discovered model of the fold, which fills in the families the summary left out.
* `refreshAccountQuota`: what is recorded once both answers are there.

The fetches, the token and the identity checks that precede them are not modelled.
-/

namespace AgyProxy

open Js Lib

structure ModelQuotaInfo where
  modelId : JsString
  displayName : JsString
  remainingFraction : ℚ
  resetTime : Option JsString
deriving DecidableEq

/-- A family's windows with what the admin panel shows beside them. -/
structure FamilyQuotaRecord extends FamilyQuotaInfo where
  description : Option JsString
  updatedAt : Option ℕ
  models : Option (List ModelQuotaInfo)
deriving DecidableEq

abbrev FamilyQuotas := ModelFamily → Option FamilyQuotaRecord

structure QuotaSummaryBucket where
  bucketId : Option JsString
  window : Option JsString
  resetTime : Option JsString
  remainingFraction : Option ℚ

structure QuotaSummaryGroup where
  displayName : Option JsString
  description : Option JsString
  buckets : List QuotaSummaryBucket

/-- `quotaInfo` and the name of a discovered model; the fraction is whatever the endpoint sent. -/
structure DiscoveredModelEntry where
  remainingFraction : Option Json
  resetTime : Option JsString
  displayName : Option JsString

/-- `discovered.models`: the entries, in the order of `Object.entries`. -/
structure DiscoveredModels where
  entries : List (JsString × DiscoveredModelEntry)
  unique : (entries.map Prod.fst).Nodup

/-! ### The quota summary -/

/-- The families a group speaks of. -/
def targetFamilies (group : QuotaSummaryGroup) : List ModelFamily :=
  let dName := toLowerCase (group.displayName.getD [])
  let desc := toLowerCase (group.description.getD [])
  let isGoogle := includes dName (js "gemini") || includes desc (js "gemini")
  let is3P := includes dName (js "claude") || includes dName (js "gpt") ||
    includes desc (js "claude") || includes desc (js "gpt")
  if isGoogle then [.google] else if is3P then [.anthropic, .openai] else []

/-- One bucket of the loop; the last of each window counts. -/
def readBucket (quota : FamilyQuotaInfo) (b : QuotaSummaryBucket) : FamilyQuotaInfo :=
  let w := toLowerCase (((truthy? b.window).or (truthy? b.bucketId)).getD [])
  if includes w (js "5h") then { quota with remainingFraction := b.remainingFraction, resetTime := b.resetTime }
  else if includes w (js "weekly") then
    { quota with weeklyFraction := b.remainingFraction, weeklyResetTime := b.resetTime }
  else quota

def groupQuota (now : ℕ) (group : QuotaSummaryGroup) : FamilyQuotaRecord where
  toFamilyQuotaInfo := group.buckets.foldl readBucket ⟨none, none, none, none⟩
  description := group.description
  updatedAt := some now
  models := none

/-- One group of the loop. -/
def ingestGroup (now : ℕ) (familyQuotas : FamilyQuotas) (group : QuotaSummaryGroup) : FamilyQuotas :=
  (targetFamilies group).foldl (fun quotas fam => Function.update quotas fam (some (groupQuota now group))) familyQuotas

def summaryQuotas (now : ℕ) (groups : List QuotaSummaryGroup) : FamilyQuotas :=
  groups.foldl (ingestGroup now) fun _ => none

/-! ### The discovered models -/

/-- `typeof remaining === 'number' && Number.isFinite(remaining)`. -/
def finiteNumber? : Option Json → Option ℚ
  | some (.num x) => finite? x
  | _ => none

/-- The last known good entry wins over a partial fallback. -/
def mergeFallbackFamilyQuota (prev : Option FamilyQuotaRecord) (fallback : FamilyQuotaRecord) : FamilyQuotaRecord :=
  match prev with
  | some prev => if prev.remainingFraction.isSome then prev else fallback
  | none => fallback

/-- `familyQuotas` and `familyModels`. -/
structure QuotaIngest where
  familyQuotas : FamilyQuotas
  familyModels : ModelFamily → Option (List ModelQuotaInfo)

section Date

variable (dateParse : JsString → Option ℤ)

/-- `resetTime && (!cur || Date.parse(resetTime) > Date.parse(cur))`; a comparison with `NaN` fails. -/
def laterReset (resetTime cur : Option JsString) : Bool :=
  match truthy? resetTime, truthy? cur with
  | none, _ => false
  | some _, none => true
  | some r, some c =>
    match dateParse r, dateParse c with
    | some r, some c => decide (c < r)
    | _, _ => false

/-- The reading of a model against the entry its family has. -/
def foldReading (quota : FamilyQuotaRecord) (remaining : ℚ) (resetTime : Option JsString) : FamilyQuotaRecord :=
  if quota.remainingFraction = none then
    let curRemaining := quota.remainingFraction.getD 1
    if remaining < curRemaining then { quota with remainingFraction := some remaining, resetTime }
    else if remaining = curRemaining ∧ laterReset dateParse resetTime quota.resetTime then { quota with resetTime }
    else quota
  else quota

/-- One discovered model of the loop. -/
def ingestModel (stored : FamilyQuotas) (now : ℕ) (acc : QuotaIngest) (model : JsString × DiscoveredModelEntry) :
    QuotaIngest :=
  let fam := modelFamilyOf model.1
  if fam = .unknown then acc
  else
    match finiteNumber? model.2.remainingFraction with
    | none => acc
    | some remaining =>
      let resetTime := model.2.resetTime
      let info : ModelQuotaInfo := ⟨model.1, (truthy? model.2.displayName).getD model.1, remaining, resetTime⟩
      let quota :=
        match acc.familyQuotas fam with
        | none => mergeFallbackFamilyQuota (stored fam) ⟨⟨some remaining, resetTime, none, none⟩, none, some now, none⟩
        | some quota => foldReading dateParse quota remaining resetTime
      { familyQuotas := Function.update acc.familyQuotas fam (some quota)
        familyModels := Function.update acc.familyModels fam (some ((acc.familyModels fam).getD [] ++ [info])) }

def ingestModels (stored : FamilyQuotas) (now : ℕ) (groups : List QuotaSummaryGroup)
    (models : List (JsString × DiscoveredModelEntry)) : QuotaIngest :=
  models.foldl (ingestModel dateParse stored now) ⟨summaryQuotas now groups, fun _ => none⟩

/-- `familyQuotas[fam].models = list`. -/
def withModels (ingest : QuotaIngest) : FamilyQuotas := fun fam =>
  (ingest.familyQuotas fam).map fun quota => { quota with models := (ingest.familyModels fam).or quota.models }

/-- `refreshAccountQuota` from the two answers on; `none` when neither endpoint answered. -/
def refreshAccountQuota (stored : FamilyQuotas) (now : ℕ) (summary : Option (List QuotaSummaryGroup))
    (discovered : Option DiscoveredModels) : Option FamilyQuotas :=
  if summary = none ∧ discovered = none then none
  else
    some (withModels (ingestModels dateParse stored now (summary.getD [])
      ((discovered.map DiscoveredModels.entries).getD [])))

end Date

end AgyProxy

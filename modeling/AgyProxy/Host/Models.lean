import AgyProxy.Host.Dispatch
import AgyProxy.Lib.Search

/-!
# AgyProxy.Host.Models — model ids (`src/host/models.ts`, `modelFamilyOf` in `src/common/pool-types.ts`)

* `resolveModelSlug`: the aliases of a slug; resolving twice is resolving once (`resolveModelSlug_idem`).
* `Catalog`, `findEntry`, `defaultEffortFor`.
* `modelFamilyOf`: the quota family of a model.
-/

namespace AgyProxy

open Js Lib

/-! ### Slugs -/

def claudeOpusAliases : List JsString :=
  [js "claude-opus-4-6", js "claude-opus-4-8", js "claude-opus", js "claude-opus-4.6", js "claude-opus-4-5"]

def claudeSonnetAliases : List JsString := [js "claude-sonnet", js "claude-sonnet-4.6", js "claude-sonnet-4-5"]

def gptOssAliases : List JsString := [js "gpt-oss-120b", js "gpt-oss-20b", js "gpt-oss"]

def resolveModelSlug (id : JsString) : JsString :=
  let s := toLowerCase (trim id)
  if s ∈ claudeOpusAliases then js "claude-opus-4-6-thinking"
  else if s ∈ claudeSonnetAliases then js "claude-sonnet-4-6"
  else if s ∈ gptOssAliases then js "gpt-oss-120b-medium"
  else trim id

theorem trim_trim (s : JsString) : trim (trim s) = trim s := by
  have hfirst : ∀ t : JsString, (∀ c ∈ t.head?, isWhiteSpace c = false) → t.dropWhile isWhiteSpace = t := by
    intro t ht
    cases t with
    | nil => rfl
    | cons c t => exact List.dropWhile_cons_of_neg (by rw [ht c rfl]; exact Bool.false_ne_true)
  unfold trim
  set t := s.dropWhile isWhiteSpace with ht
  have hhead : ∀ c ∈ t.head?, isWhiteSpace c = false := by
    intro c hc
    have hne : t ≠ [] := by
      rintro h
      rw [h] at hc
      exact nomatch hc
    have hnot := List.head_dropWhile_not isWhiteSpace hne
    obtain rfl : t.head hne = c := Option.some.inj ((List.head?_eq_some_head hne).symm.trans hc)
    exact hnot
  have hprefix : t.rdropWhile isWhiteSpace <+: t := List.rdropWhile_prefix _ t
  have hkept : (t.rdropWhile isWhiteSpace).dropWhile isWhiteSpace = t.rdropWhile isWhiteSpace := by
    refine hfirst _ fun c hc => hhead c ?_
    obtain ⟨rest, hrest⟩ := hprefix
    rw [← hrest, Option.mem_def, List.head?_append, hc]
    rfl
  rw [hkept]
  exact List.rdropWhile_idempotent _ _

/-- **An alias is resolved once**: what a slug resolves to resolves to itself. -/
theorem resolveModelSlug_idem (id : JsString) : resolveModelSlug (resolveModelSlug id) = resolveModelSlug id := by
  have hopus : resolveModelSlug (js "claude-opus-4-6-thinking") = js "claude-opus-4-6-thinking" := by decide +kernel
  have hsonnet : resolveModelSlug (js "claude-sonnet-4-6") = js "claude-sonnet-4-6" := by decide +kernel
  have hgpt : resolveModelSlug (js "gpt-oss-120b-medium") = js "gpt-oss-120b-medium" := by decide +kernel
  by_cases h₁ : toLowerCase (trim id) ∈ claudeOpusAliases
  · have hid : resolveModelSlug id = js "claude-opus-4-6-thinking" := if_pos h₁
    rw [hid, hopus]
  · by_cases h₂ : toLowerCase (trim id) ∈ claudeSonnetAliases
    · have hid : resolveModelSlug id = js "claude-sonnet-4-6" := (if_neg h₁).trans (if_pos h₂)
      rw [hid, hsonnet]
    · by_cases h₃ : toLowerCase (trim id) ∈ gptOssAliases
      · have hid : resolveModelSlug id = js "gpt-oss-120b-medium" :=
          (if_neg h₁).trans ((if_neg h₂).trans (if_pos h₃))
        rw [hid, hgpt]
      · have hid : resolveModelSlug id = trim id := (if_neg h₁).trans ((if_neg h₂).trans (if_neg h₃))
        have htrim : resolveModelSlug (trim id) = trim id := by
          unfold resolveModelSlug
          rw [trim_trim]
          exact (if_neg h₁).trans ((if_neg h₂).trans (if_neg h₃))
        rw [hid, htrim]

/-! ### The catalog -/

structure CatalogEntry where
  id : JsString
  name : JsString
  /-- null for a model without selectable efforts -/
  efforts : Option (List JsString)
deriving DecidableEq

inductive CatalogSource
  | discovered | fallback
deriving DecidableEq

structure Catalog where
  source : CatalogSource
  models : List CatalogEntry

def Catalog.byId (catalog : Catalog) (id : JsString) : Option CatalogEntry :=
  catalog.models.find? fun m => m.id == id

def findEntry (catalog : Catalog) (id : JsString) : Option CatalogEntry :=
  match catalog.byId id with
  | some direct => some direct
  | none => if resolveModelSlug id ≠ id then catalog.byId (resolveModelSlug id) else none

/-- The configured default, else the highest effort there is. -/
def defaultEffortFor (entry : CatalogEntry) (defaultEffort : JsString) : Option JsString :=
  match entry.efforts with
  | none => none
  | some efforts =>
    if efforts = [] then none
    else if defaultEffort ≠ [] ∧ defaultEffort ∈ efforts then some defaultEffort
    else
      match [js "high", js "medium", js "low"].find? fun pref => decide (pref ∈ efforts) with
      | some pref => some pref
      | none => efforts.getLast?

/-! ### Families -/

def includes (text word : JsString) : Bool := (indexOf word text).isSome

def modelFamilyOf (modelId : JsString) : ModelFamily :=
  if modelId = [] then .unknown
  else
    let id := toLowerCase modelId
    if js "claude-" <+: id ∨ includes id (js "claude") then .anthropic
    else if js "gemini-" <+: id ∨ js "gemma-" <+: id ∨ includes id (js "gemini") then .google
    else if js "gpt-" <+: id ∨ js "openai/" <+: id ∨ includes id (js "gpt-oss") then .openai
    else .unknown

end AgyProxy

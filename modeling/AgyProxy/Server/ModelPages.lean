import AgyProxy.Common.Config
import AgyProxy.Host.Models
import AgyProxy.Server.Errors

/-!
# AgyProxy.Server.ModelPages — the paged model list (`src/server/models-routes.ts`)

* `toAnthropicEntries`: the entries of the list, from the catalog.
* `pageLimit`, `windowStart`, `windowEnd`: how the query is read.
* `paginateModels`: one page of the list, between the anchors `after_id` and `before_id`.
-/

namespace AgyProxy

open Js

/-! ### Entries -/

/-- `'2026-01-01T00:00:00.000Z'`, from the fixed `MODEL_CREATED`. -/
def MODEL_CREATED_AT : JsString := js "2026-01-01T00:00:00.000Z"

structure AnthropicModelEntry where
  id : JsString
  display_name : JsString
  created_at : JsString
deriving DecidableEq

def toAnthropicEntries (models : List CatalogEntry) : List AnthropicModelEntry :=
  models.map fun m => ⟨m.id, if m.name ≠ [] then m.name else m.id, MODEL_CREATED_AT⟩

/-! ### The query -/

def MODELS_PAGE_DEFAULT : ℕ := 20
def MODELS_PAGE_MAX : ℕ := 1000

/-- The query string's fields, `none` when absent. -/
structure PageQuery where
  limit : Option Json
  after_id : Option Json
  before_id : Option Json

/-- `httpError(statusCode, message, type, code)`. -/
structure PageError where
  statusCode : ℕ
  message : JsString
  type : ErrorType
  code : JsString
deriving DecidableEq

/-- `Number.isInteger(n) && n > 0`. -/
def positiveInteger? : Js.Num → Option ℕ
  | .fin q => if q.den = 1 ∧ 0 < q.num then some q.num.toNat else none
  | _ => none

/-- A limit given as text is read by `Number`. -/
def limitNumber? : Json → Option Js.Num
  | .str s => some (stringToNumber s)
  | .num x => some x
  | _ => none

def pageLimit : Option Json → Except PageError ℕ
  | none => .ok MODELS_PAGE_DEFAULT
  | some v =>
    match (limitNumber? v).bind positiveInteger? with
    | some n => .ok (min n MODELS_PAGE_MAX)
    | none => .error ⟨400, js "limit must be a positive integer", .invalidRequestError, js "invalid_request"⟩

/-- An anchor is a string that is not empty. -/
def anchor? (v : Option Json) : Option JsString := truthy? (asString v)

/-- Behind the entry `after_id` names; behind all for an unknown one. -/
def windowStart (ids : List JsString) (after : Option JsString) : ℕ :=
  match after with
  | none => 0
  | some id =>
    match ids.findIdx? fun x => decide (x = id) with
    | none => ids.length
    | some idx => idx + 1

/-- Before the entry `before_id` names; before all for an unknown one. -/
def windowEnd (ids : List JsString) (before : Option JsString) : ℕ :=
  match before with
  | none => ids.length
  | some id =>
    match ids.findIdx? fun x => decide (x = id) with
    | none => 0
    | some idx => idx

/-! ### Pages -/

structure ModelPage (T : Type) where
  data : List T
  first_id : Option JsString
  last_id : Option JsString
  has_more : Bool

section Pages

variable {T : Type} (idOf : T → JsString)

/-- The page of at most `limit` entries from `start` on and before `stop`. -/
def pageBetween (entries : List T) (start stop limit : ℕ) : ModelPage T :=
  let page := (entries.take (if start = 0 then min stop limit else min stop (start + limit))).drop start
  let consumed := if start = 0 then page.length else start + page.length
  let hasMore := if 0 < page.length then decide (consumed < stop) || decide (start + page.length < stop) else false
  { data := page
    first_id := page.head?.map idOf
    last_id := page.getLast?.map idOf
    has_more := hasMore || decide (consumed < entries.length) }

def paginateModels (entries : List T) (query : PageQuery) : Except PageError (ModelPage T) :=
  (pageLimit query.limit).map fun limit =>
    pageBetween idOf entries (windowStart (entries.map idOf) (anchor? query.after_id))
      (windowEnd (entries.map idOf) (anchor? query.before_id)) limit

end Pages

end AgyProxy

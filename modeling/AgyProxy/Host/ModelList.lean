import AgyProxy.Common.Config
import AgyProxy.Host.Models
import AgyProxy.Lib.Keyed
import Mathlib.Data.ENat.Basic
import Mathlib.Data.List.Sort

/-!
# AgyProxy.Host.ModelList — from the output of `agy models` to catalog entries (`src/host/models.ts`)

* `parseModelsOutput`: the listed slugs, each once, from JSON or from the two-column table.
* `foldEfforts`: Gemini slugs `base-low`, `base-medium`, `base-high` become one entry with selectable efforts.
* `buildFallbackCatalog`: the entries used when nothing was discovered.
-/

namespace AgyProxy

open Js Lib

structure RawModel where
  slug : JsString
  label : JsString
deriving DecidableEq

/-! ### Reading the output -/

/-- `o.a ?? o.b ?? …`. -/
def firstField (o : Obj) (keys : List String) : Option Json :=
  keys.findSome? fun k =>
    match Obj.get? o (js k) with
    | some .null => none
    | v => v

/-- An element of a JSON list. -/
def rawModelOf (item : Json) : Option RawModel :=
  match item with
  | .str s => some ⟨s, s⟩
  | item =>
    item.asObject?.bind fun o =>
      let slugV := firstField o ["slug", "id", "name", "model"]
      let labelV := (firstField o ["label", "display_name", "displayName", "title"]).or slugV
      (asString slugV).bind fun slug => if slug ≠ [] then some ⟨slug, (asString labelV).getD slug⟩ else none

def arrayOf : Json → Option (List Json)
  | .arr es => some es
  | _ => none

/-- The list itself, or the first of four properties that holds one. -/
def extractModelList (parsed : Json) : Option (List RawModel) :=
  let arr :=
    match parsed with
    | .arr es => some es
    | .obj o => [js "models", js "items", js "data", js "result"].findSome? fun k => (Obj.get? o k).bind arrayOf
    | _ => none
  arr.map fun es => es.filterMap rawModelOf

/-- The loop of `dedupeBySlug`: the first occurrence of a slug wins. -/
def dedupeFrom (seen : List JsString) : List RawModel → List RawModel
  | [] => []
  | r :: raw =>
    let slug := trim r.slug
    if slug = [] ∨ slug ∈ seen then dedupeFrom seen raw
    else ⟨slug, if trim r.label ≠ [] then trim r.label else slug⟩ :: dedupeFrom (slug :: seen) raw

def dedupeBySlug (raw : List RawModel) : List RawModel := dedupeFrom [] raw

/-- A line that is no row. -/
def isNotice (t : JsString) : Bool :=
  t.isEmpty || (js "Fetching").isPrefixOf t || (js "Error").isPrefixOf t ||
    !(Rx.run (.alts [.litI (js "please sign in"), .litI (js "warning"), .litI (js "tip:")]) (none, t)).isEmpty

/-- `^(\S+)(?:\t+|\s{2,})(.+)$`. -/
def rowRx : Rx :=
  Rx.seqs (.many notWhiteSpace 1) [.alt (.many (· == 0x09) 1) (.many isWhiteSpace 2), .many (!isLineTerminator ·) 1]

/-- A line of the table: the slug ends at the first blank, the label is the rest. -/
def rowOf (t : JsString) : Option RawModel :=
  if isNotice t then none
  else if (Rx.run rowRx (none, t)).any fun p => p.2.isEmpty then
    some ⟨t.takeWhile notWhiteSpace, trim (t.dropWhile notWhiteSpace)⟩
  else if t.all notWhiteSpace then some ⟨t, t⟩
  else none

def parseModelsOutput (stdout : JsString) : List RawModel :=
  let text := trim stdout
  if text = [] then []
  else
    match (Json.parse text).bind extractModelList with
    | some list => dedupeBySlug list
    | none => dedupeBySlug ((text.splitOn 0x0A).filterMap fun line => rowOf (trim line))

/-! ### Folding efforts -/

def EFFORT_SUFFIXES : List JsString := [js "low", js "medium", js "high"]

/-- `base-eff`. -/
def variantSlug (base eff : JsString) : JsString := base ++ js "-" ++ eff

/-- The base and the effort a slug is folded into. -/
def foldTarget? (raw : List RawModel) (r : RawModel) : Option (JsString × JsString) :=
  if ¬ js "gemini" <+: r.slug then none
  else
    EFFORT_SUFFIXES.findSome? fun eff =>
      if js "-" ++ eff <:+ r.slug then
        let base := r.slug.take (r.slug.length - (js "-" ++ eff).length)
        let hasBare := raw.any fun x => decide (x.slug = base)
        let hasSibling := raw.any fun x =>
          decide (base ++ js "-" <+: x.slug ∧ (∃ e ∈ EFFORT_SUFFIXES, js "-" ++ e <:+ x.slug) ∧ x.slug ≠ r.slug)
        if hasBare || hasSibling then some (base, eff) else none
      else none

/-- The rest of a text from the leftmost match that reaches its end is dropped: `s.replace(/…$/, '')`. -/
def cutAtEnd (r : Rx) (prev : Option UInt16) : JsString → JsString
  | [] => []
  | c :: s =>
    if (Rx.run r (prev, c :: s)).any fun p => p.2.isEmpty then [] else c :: cutAtEnd r (some c) s

/-- `\s*\(?eff\)?\s*$` under the flag `i`. -/
def stripEffortLabel (label eff : JsString) : JsString :=
  trim (cutAtEnd (Rx.seqs (.many isWhiteSpace 0) [.opt (.lit (js "(")), .litI eff, .opt (.lit (js ")")),
    .many isWhiteSpace 0]) none label)

/-- An entry of the map of bases. -/
structure FoldedBase where
  id : JsString
  label : JsString
  efforts : List JsString

/-- `entry.efforts.add(eff)`, for the base there is or a new one. -/
def noteEffort (bases : List FoldedBase) (base eff label : JsString) : List FoldedBase :=
  match bases.find? fun b => decide (b.id = base) with
  | some _ => updateAt FoldedBase.id base (fun b => { b with efforts := eff :: b.efforts }) bases
  | none => bases ++ [⟨base, stripEffortLabel label eff, [eff]⟩]

def verbatimEntry (r : RawModel) : CatalogEntry := ⟨r.slug, r.label, none⟩

/-- One slug of the loop. -/
def foldSlug (raw : List RawModel) (acc : List FoldedBase × List CatalogEntry) (r : RawModel) :
    List FoldedBase × List CatalogEntry :=
  match foldTarget? raw r with
  | some (base, eff) => (noteEffort acc.1 base eff r.label, acc.2)
  | none => (acc.1, acc.2 ++ [verbatimEntry r])

def FoldedBase.entry (b : FoldedBase) : CatalogEntry :=
  let efforts := EFFORT_SUFFIXES.filter fun e => decide (e ∈ b.efforts)
  ⟨b.id, if b.label ≠ [] then b.label else b.id, if efforts ≠ [] then some efforts else none⟩

/-- The index a slug was listed at, the last one if it was listed twice. -/
def rawOrder (raw : List RawModel) (slug : JsString) : Option ℕ :=
  ((raw.zipIdx.filter fun r => decide (r.1.slug = slug)).getLast?).map Prod.snd

/-- The first place in the listing of a slug the entry stands for. -/
def entryRank (raw : List RawModel) (e : CatalogEntry) : ℕ∞ :=
  raw.foldl (fun best r =>
    let place : ℕ∞ := ((rawOrder raw r.slug).map Nat.cast).getD ⊤
    if (r.slug = e.id ∨ e.id ++ js "-" <+: r.slug) ∧ place < best then place else best) ⊤

def sortEntries (raw : List RawModel) (entries : List CatalogEntry) : List CatalogEntry :=
  entries.insertionSort fun a b => entryRank raw a ≤ entryRank raw b

/-- Folded bases first; a bare base listed beside its variants is not repeated. -/
def foldEfforts (raw : List RawModel) : List CatalogEntry :=
  let acc := raw.foldl (foldSlug raw) ([], [])
  sortEntries raw (acc.1.map FoldedBase.entry) ++
    (sortEntries raw acc.2).filter fun e => decide (e.id ∉ acc.1.map FoldedBase.id)

/-! ### The fallback -/

/-- A string with something in it. -/
def nonBlank? (v : Option Json) : Option JsString := (asString v).filter fun s => trim s ≠ []

/-- The entry of a fallback definition. -/
def fallbackEntry? (d : Json) : Option CatalogEntry :=
  d.asObject?.bind fun o =>
    (nonBlank? (Obj.get? o (js "id"))).map fun id =>
      { id := trim id
        name := trim ((nonBlank? (Obj.get? o (js "name"))).getD id)
        efforts := ((Obj.get? o (js "efforts")).bind arrayOf).bind fun es =>
          if es.isEmpty then none else some (es.filterMap fun e => nonBlank? (some e)) }

def buildFallbackCatalog (defs : List Json) : List CatalogEntry := defs.filterMap fallbackEntry?

end AgyProxy

import AgyProxy.Js.NumberSpec
import AgyProxy.Lib.Csv

/-!
# AgyProxy.Web.Csv — the CSV export of the admin panel (`web/src/lib/csv.ts`)

* `escapeField`, `toCsv`: the text, with a leading formula character of a string guarded by an apostrophe.
* `recovered`: what a field comes back as.
* `toCsv_parse`: an RFC 4180 parser reads every field back as that.
-/

namespace AgyProxy

open Js Lib

/-! ### Writing -/

/-- `string | number`. -/
inductive CsvField
  | str (s : JsString)
  | num (x : Js.Num)
deriving DecidableEq

structure CsvColumn (T : Type) where
  header : JsString
  /-- null and undefined are none -/
  value : T → Option CsvField

/-- `FORMULA_PREFIX`, `/^[=+@\t\r-]/`. -/
def formulaPrefix (s : JsString) : Bool := s.head?.any fun u => u ∈ [0x3D, 0x2B, 0x40, 0x09, 0x0D, 0x2D]

/-- `/[",\r\n]/`. -/
def needsQuotes (s : JsString) : Bool := s.any fun u => u ∈ [0x22, 0x2C, 0x0D, 0x0A]

/-- `out.replaceAll('"', '""')`. -/
def doubleQuotes (s : JsString) : JsString := s.flatMap fun u => if u = 0x22 then [0x22, 0x22] else [u]

def escapeField : CsvField → JsString
  | .num x => numberToString x
  | .str value =>
    let out := if formulaPrefix value then js "'" ++ value else value
    if needsQuotes out then js "\"" ++ doubleQuotes out ++ js "\"" else out

section Table

variable {T : Type}

/-- The cells of the header and of every row, `?? ''` applied. -/
def csvTable (rows : List T) (columns : List (CsvColumn T)) : List (List CsvField) :=
  columns.map (fun c => .str c.header) ::
    rows.map fun row => columns.map fun c => (c.value row).getD (.str [])

def toCsv (rows : List T) (columns : List (CsvColumn T)) : JsString :=
  let lines := (csvTable rows columns).map fun cells => List.intercalate (js ",") (cells.map escapeField)
  List.intercalate (js "\r\n") lines ++ js "\r\n"

end Table

example : toCsv [(js "=1+1", (-7 : ℤ)), (js "say \"hi\"", 0)]
    [⟨js "name", fun r => some (.str r.1)⟩, ⟨js "n", fun r => some (.num (.fin r.2))⟩] =
      js "name,n\r\n'=1+1,-7\r\n\"say \"\"hi\"\"\",0\r\n" := by decide +kernel

/-! ### Reading back -/

/-- RFC 4180. -/
def rfc4180 : Dialect UInt16 := ⟨0x2C, 0x22, 0x0D, 0x0A, by decide⟩

/-- What a field comes back as. -/
def recovered : CsvField → JsString
  | .num x => numberToString x
  | .str value => if formulaPrefix value then 0x27 :: value else value

theorem isText_of_numberUnit {u : UInt16} (h : NumberUnit u) : rfc4180.IsText u := by
  rcases h with h | h
  · have hspecial : ∀ v ∈ [(0x2C : UInt16), 0x22, 0x0D, 0x0A], isDigit v = false := forall_units (by decide)
    exact fun hmem => Bool.false_ne_true ((hspecial u hmem).symm.trans h)
  · have htext : ∀ v ∈ js "+-.efintyNaI", rfc4180.IsText v := forall_units (by decide)
    exact htext u h

/-- Quotes stand where they must. -/
theorem written_quoted (out : JsString) :
    rfc4180.Written out (if needsQuotes out then js "\"" ++ doubleQuotes out ++ js "\"" else out) := by
  by_cases h : needsQuotes out = true
  · rw [if_pos h]
    exact Dialect.Written.quoted out
  · rw [if_neg h]
    refine Dialect.Written.bare fun u hu hmem => h ?_
    have hsame : ∀ v ∈ [(0x2C : UInt16), 0x22, 0x0D, 0x0A], v ∈ [(0x22 : UInt16), 0x2C, 0x0D, 0x0A] :=
      forall_units (by decide)
    exact List.any_eq_true.mpr ⟨u, hu, decide_eq_true (hsame u hmem)⟩

theorem written_escapeField : ∀ f : CsvField, rfc4180.Written (recovered f) (escapeField f)
  | .num x => Dialect.Written.bare fun u hu => isText_of_numberUnit (numberToString_units x u hu)
  | .str value => written_quoted (if formulaPrefix value then 0x27 :: value else value)

/-- A guarded string is no formula. -/
theorem formulaPrefix_recovered (value : JsString) : formulaPrefix (recovered (.str value)) = false := by
  rw [recovered]
  by_cases h : formulaPrefix value = true
  · rw [if_pos h]
    rfl
  · rw [if_neg h]
    exact Bool.eq_false_of_not_eq_true h

/-- A field comes back empty only from an empty string. -/
theorem recovered_eq_nil {f : CsvField} (h : recovered f = []) : f = .str [] := by
  cases f with
  | num x => exact absurd h (numberToString_ne_nil x)
  | str value =>
    rw [recovered] at h
    split at h
    · cases h
    · rw [h]

/-- The text of a table, line by line. -/
theorem toCsv_eq {T : Type} (rows : List T) (columns : List (CsvColumn T)) :
    toCsv rows columns =
      rfc4180.joinLines (((csvTable rows columns).map (List.map escapeField)).map rfc4180.joinFields) := by
  unfold csvTable
  rw [List.map_map, List.map_cons, Dialect.joinLines_cons]
  rfl

theorem written_table (table : List (List CsvField)) :
    List.Forall₂ (List.Forall₂ rfc4180.Written) (table.map (List.map recovered))
      (table.map (List.map escapeField)) := by
  rw [List.forall₂_map_left_iff, List.forall₂_map_right_iff]
  refine List.forall₂_same.mpr fun cells _ => ?_
  rw [List.forall₂_map_left_iff, List.forall₂_map_right_iff]
  exact List.forall₂_same.mpr fun f _ => written_escapeField f

/-- Only a table without columns has a record of no field. -/
theorem columns_eq_nil {T : Type} {rows : List T} {columns : List (CsvColumn T)} (h : [] ∈ csvTable rows columns) :
    columns = [] := by
  rcases List.mem_cons.mp h with h | h
  · exact List.map_eq_nil_iff.mp h.symm
  · obtain ⟨row, -, hrow⟩ := List.mem_map.mp h
    exact List.map_eq_nil_iff.mp hrow

/-- **The export reads back**, whatever the parser takes an empty line for when there is a column, and as records
of no field when there is none. -/
theorem toCsv_parse {T : Type} (rows : List T) (columns : List (CsvColumn T))
    (hsingle : [.str []] ∉ csvTable rows columns) :
    rfc4180.parse [[]] (toCsv rows columns) = some ((csvTable rows columns).map (List.map recovered)) ∧
      (columns ≠ [] → ∀ emptyLine,
        rfc4180.parse emptyLine (toCsv rows columns) = some ((csvTable rows columns).map (List.map recovered))) ∧
      (∀ value, formulaPrefix value = true → recovered (.str value) = js "'" ++ value) ∧
      (∀ value, formulaPrefix value = false → recovered (.str value) = value) ∧
      ∀ value, formulaPrefix (recovered (.str value)) = false := by
  have hlines : [[]] ∉ (csvTable rows columns).map (List.map recovered) := by
    intro hmem
    obtain ⟨cells, hcells, hread⟩ := List.mem_map.mp hmem
    obtain ⟨f, rfl, hf⟩ := List.map_eq_singleton_iff.mp hread
    exact hsingle (recovered_eq_nil hf ▸ hcells)
  refine ⟨?_, fun hcolumns emptyLine => ?_, fun value h => ?_, fun value h => ?_, formulaPrefix_recovered⟩
  · rw [toCsv_eq]
    exact Dialect.parse_joinLines (written_table _) hlines fun _ => rfl
  · rw [toCsv_eq]
    refine Dialect.parse_joinLines (written_table _) hlines fun hmem => absurd ?_ hcolumns
    obtain ⟨cells, hcells, hread⟩ := List.mem_map.mp hmem
    exact columns_eq_nil (List.map_eq_nil_iff.mp hread ▸ hcells)
  · rw [recovered, if_pos h]
    rfl
  · rw [recovered, h]
    rfl

theorem toCsv_parse_two :
    rfc4180.parse [[]] (toCsv [js "@a,b"] [⟨js "name", fun s => some (.str s)⟩, ⟨js "n", fun _ => none⟩]) =
      some [[js "name", js "n"], [js "'@a,b", []]] := by
  have h := (toCsv_parse [js "@a,b"] [⟨js "name", fun s => some (.str s)⟩, ⟨js "n", fun _ => none⟩] (by decide)).1
  exact h

end AgyProxy

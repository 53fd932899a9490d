import Mathlib.Data.List.Basic
import Mathlib.Data.List.Forall2

/-!
# AgyProxy.Lib.Csv — tables as text (RFC 4180)

A field is written bare, or between quotes with its quotes doubled; fields are separated, and every record ends
with CR LF.  The four special units are a parameter; every other unit is text.

* `Dialect.Written`: the written forms of a field; `written_escape`: the one that quotes when it must is one.
* `Dialect.parse`: a parser by one pass over the units; it refuses a stray quote, CR or LF.
* `parse_joinLines`: it reads back every table of written fields.

Parsers differ about an empty line, so what one stands for is a parameter as well.
-/

namespace AgyProxy.Lib

/-- The four special units. -/
structure Dialect (U : Type) where
  separator : U
  quote : U
  cr : U
  lf : U
  distinct : [separator, quote, cr, lf].Nodup

section Csv

variable {U : Type} (d : Dialect U)

namespace Dialect

/-- A unit that a bare field may hold. -/
def IsText (u : U) : Prop := u ∉ [d.separator, d.quote, d.cr, d.lf]

variable {d}

theorem quote_ne_separator : d.quote ≠ d.separator := fun h => by
  have hdistinct := d.distinct
  simp [h] at hdistinct

theorem quote_ne_cr : d.quote ≠ d.cr := fun h => by
  have hdistinct := d.distinct
  simp [h] at hdistinct

theorem cr_ne_separator : d.cr ≠ d.separator := fun h => by
  have hdistinct := d.distinct
  simp [h] at hdistinct

theorem IsText.ne {u : U} (h : d.IsText u) : u ≠ d.separator ∧ u ≠ d.quote ∧ u ≠ d.cr := by
  unfold IsText at h
  simp only [List.mem_cons, not_or] at h
  exact ⟨h.1, h.2.1, h.2.2.1⟩

variable (d)

/-! ### Writing -/

def joinFields (texts : List (List U)) : List U := List.intercalate [d.separator] texts

/-- Every record on a line of its own. -/
def joinLines (lines : List (List U)) : List U := lines.flatMap fun line => line ++ [d.cr, d.lf]

variable {d}

theorem joinFields_cons (text text' : List U) (texts : List (List U)) :
    d.joinFields (text :: text' :: texts) = text ++ d.separator :: d.joinFields (text' :: texts) := by
  unfold joinFields
  rw [List.intercalate_cons_cons]
  simp

/-- The lines are joined by CR LF, and the last one ends with it too. -/
theorem joinLines_cons : ∀ (line : List U) (lines : List (List U)),
    d.joinLines (line :: lines) = List.intercalate [d.cr, d.lf] (line :: lines) ++ [d.cr, d.lf]
  | line, [] => by
    rw [List.intercalate_singleton]
    exact List.append_nil _
  | line, line' :: lines => by
    have hrest : d.joinLines (line :: line' :: lines) = (line ++ [d.cr, d.lf]) ++ d.joinLines (line' :: lines) := rfl
    rw [hrest, joinLines_cons line' lines, List.intercalate_cons_cons, List.append_assoc, List.append_assoc,
      List.append_assoc]

variable (d) [DecidableEq U]

instance (u : U) : Decidable (d.IsText u) := inferInstanceAs (Decidable (u ∉ _))

def doubled (field : List U) : List U := field.flatMap fun u => if u = d.quote then [d.quote, d.quote] else [u]

def quoted (field : List U) : List U := d.quote :: (d.doubled field ++ [d.quote])

/-- The written forms of a field. -/
inductive Written : List U → List U → Prop
  | bare {field : List U} : (∀ u ∈ field, d.IsText u) → Written field field
  | quoted (field : List U) : Written field (d.quoted field)

/-! ### Reading -/

section Records

omit [DecidableEq U]

/-- One more unit in the first field. -/
def consUnit (u : U) : List (List (List U)) → List (List (List U))
  | (field :: fields) :: records => ((u :: field) :: fields) :: records
  | records => records

/-- One more, empty, field before the first one. -/
def consField : List (List (List U)) → List (List (List U))
  | fields :: records => ([] :: fields) :: records
  | [] => []

/-- Written before the first field. -/
def consText (field : List U) (records : List (List (List U))) : List (List (List U)) := field.foldr consUnit records

@[simp] theorem consText_nil : consText ([] : List U) = id := rfl

theorem consText_cons (u : U) (field : List U) : consText (u :: field) = consUnit u ∘ consText field := rfl

theorem consText_field (field field' : List U) (fields : List (List U)) (records : List (List (List U))) :
    consText field ((field' :: fields) :: records) = ((field ++ field') :: fields) :: records := by
  induction field with
  | nil => rfl
  | cons u field ih =>
    show consUnit u (consText field _) = _
    rw [ih]
    rfl

end Records

/-- Where the parser is: before a line, before a field, in one, after a quote in a quoted one, after a CR. -/
inductive Mode
  | line | start | bare | quoted | quoteSeen | lineEnd | emptyLineEnd

/-- What is left of the records after this point; `emptyLine` is what an empty line stands for. -/
@[grind =] def read (emptyLine : List (List (List U))) : Mode → List U → Option (List (List (List U)))
  | .line, [] => some []
  | .start, [] => some [[[]]]
  | .bare, [] => some [[[]]]
  | .quoteSeen, [] => some [[[]]]
  | .quoted, [] => none
  | .lineEnd, [] => none
  | .emptyLineEnd, [] => none
  | .quoted, u :: t =>
    if u = d.quote then read emptyLine .quoteSeen t else (read emptyLine .quoted t).map (consUnit u)
  | .lineEnd, u :: t => if u = d.lf then (read emptyLine .line t).map fun records => [[]] :: records else none
  | .emptyLineEnd, u :: t =>
    if u = d.lf then (read emptyLine .line t).map fun records => emptyLine ++ records else none
  | .quoteSeen, u :: t =>
    if u = d.separator then (read emptyLine .start t).map consField
    else if u = d.cr then read emptyLine .lineEnd t
    else if u = d.quote then (read emptyLine .quoted t).map (consUnit u)
    else none
  | .bare, u :: t =>
    if u = d.separator then (read emptyLine .start t).map consField
    else if u = d.cr then read emptyLine .lineEnd t
    else if d.IsText u then (read emptyLine .bare t).map (consUnit u)
    else none
  | .start, u :: t =>
    if u = d.separator then (read emptyLine .start t).map consField
    else if u = d.cr then read emptyLine .lineEnd t
    else if u = d.quote then read emptyLine .quoted t
    else if d.IsText u then (read emptyLine .bare t).map (consUnit u)
    else none
  | .line, u :: t =>
    if u = d.separator then (read emptyLine .start t).map consField
    else if u = d.cr then read emptyLine .emptyLineEnd t
    else if u = d.quote then read emptyLine .quoted t
    else if d.IsText u then (read emptyLine .bare t).map (consUnit u)
    else none

/-- The records of a text; none when it is malformed. -/
def parse (emptyLine : List (List (List U))) (text : List U) : Option (List (List (List U))) :=
  d.read emptyLine .line text

/-! ### What the parser reads -/

variable {d}

/-- A field ends here: at the end of the text, at a separator or at a CR. -/
def EndsField (d : Dialect U) (rest : List U) : Prop := ∀ u ∈ rest.head?, u = d.separator ∨ u = d.cr

variable {emptyLine : List (List (List U))} {field text rest : List U}

theorem read_bare (hfield : ∀ u ∈ field, d.IsText u) (hrest : d.EndsField rest) :
    d.read emptyLine .bare (field ++ rest) = (d.read emptyLine .quoteSeen rest).map (consText field) := by
  induction field with
  | nil =>
    rw [List.nil_append, consText_nil, Option.map_id_fun, id]
    cases rest with
    | nil => rfl
    | cons u t =>
      rw [read, read]
      rcases hrest u rfl with rfl | rfl
      · rw [if_pos rfl, if_pos rfl]
      · rw [if_neg cr_ne_separator, if_neg cr_ne_separator, if_pos rfl, if_pos rfl]
  | cons u field ih =>
    have htext : d.IsText u := hfield u List.mem_cons_self
    rw [List.cons_append, read, if_neg htext.ne.1, if_neg htext.ne.2.2, if_pos htext,
      ih fun v hv => hfield v (List.mem_cons_of_mem u hv), Option.map_map, consText_cons]

theorem read_start_bare (hfield : ∀ u ∈ field, d.IsText u) (hrest : d.EndsField rest) :
    d.read emptyLine .start (field ++ rest) = (d.read emptyLine .quoteSeen rest).map (consText field) := by
  rw [← read_bare hfield hrest]
  cases field with
  | nil =>
    cases rest with
    | nil => rfl
    | cons u t =>
      rw [List.nil_append, read, read]
      rcases hrest u rfl with rfl | rfl
      · rw [if_pos rfl, if_pos rfl]
      · rw [if_neg cr_ne_separator, if_neg cr_ne_separator, if_pos rfl, if_pos rfl]
  | cons u field =>
    have htext : d.IsText u := hfield u List.mem_cons_self
    rw [List.cons_append, read, read, if_neg htext.ne.2.1]

theorem read_quoted (field rest : List U) :
    d.read emptyLine .quoted (d.doubled field ++ d.quote :: rest) =
      (d.read emptyLine .quoteSeen rest).map (consText field) := by
  induction field with
  | nil =>
    show d.read emptyLine .quoted (d.quote :: rest) = _
    rw [read, if_pos rfl, consText_nil, Option.map_id_fun, id]
  | cons u field ih =>
    by_cases hu : u = d.quote
    · have hdoubled : d.doubled (u :: field) = d.quote :: d.quote :: d.doubled field := by
        unfold doubled
        rw [List.flatMap_cons, if_pos hu]
        rfl
      rw [hdoubled, List.cons_append, List.cons_append, read, if_pos rfl, read, if_neg quote_ne_separator,
        if_neg quote_ne_cr, if_pos rfl, ih, Option.map_map, consText_cons, hu]
    · have hdoubled : d.doubled (u :: field) = u :: d.doubled field := by
        unfold doubled
        rw [List.flatMap_cons, if_neg hu]
        rfl
      rw [hdoubled, List.cons_append, read, if_neg hu, ih, Option.map_map, consText_cons]

/-- **A written field**, bare or quoted. -/
theorem read_written (hwritten : d.Written field text) (hrest : d.EndsField rest) :
    d.read emptyLine .start (text ++ rest) = (d.read emptyLine .quoteSeen rest).map (consText field) := by
  cases hwritten with
  | bare hfield => exact read_start_bare hfield hrest
  | quoted =>
    have htext : d.quoted field ++ rest = d.quote :: (d.doubled field ++ d.quote :: rest) := by
      unfold quoted
      rw [List.cons_append, List.append_assoc]
      rfl
    rw [htext, read, if_neg quote_ne_separator, if_neg quote_ne_cr, if_pos rfl, read_quoted]

/-- A record from its first field on. -/
theorem read_fields : ∀ {fields texts : List (List U)} {field text : List U},
    d.Written field text → List.Forall₂ d.Written fields texts →
      d.read emptyLine .start (d.joinFields (text :: texts) ++ d.cr :: d.lf :: rest) =
        (d.read emptyLine .line rest).map fun records => (field :: fields) :: records
  | _, _, field, text, hfirst, .nil => by
    have hends : d.EndsField (d.cr :: d.lf :: rest) := fun u hu => Or.inr (Option.some.inj hu).symm
    have hjoin : d.joinFields [text] = text := List.intercalate_singleton
    rw [hjoin, read_written hfirst hends, read, if_neg cr_ne_separator, if_pos rfl, read, if_pos rfl, Option.map_map]
    refine congrArg (fun f => Option.map f _) (funext fun records => ?_)
    show consText field ([[]] :: records) = _
    rw [consText_field, List.append_nil]
  | field' :: fields, text' :: texts, field, text, hfirst, .cons hwritten hrest => by
    have hends : d.EndsField (d.separator :: (d.joinFields (text' :: texts) ++ d.cr :: d.lf :: rest)) :=
      fun u hu => Or.inl (Option.some.inj hu).symm
    rw [joinFields_cons, List.append_assoc, List.cons_append, read_written hfirst hends, read, if_pos rfl,
      read_fields hwritten hrest, Option.map_map, Option.map_map]
    refine congrArg (fun f => Option.map f _) (funext fun records => ?_)
    show consText field (([] :: field' :: fields) :: records) = _
    rw [consText_field, List.append_nil]

theorem Written.head_ne_cr (h : d.Written field text) : ∀ u ∈ text.head?, u ≠ d.cr := by
  intro u hu
  cases h with
  | bare hfield => exact (hfield u (List.mem_of_mem_head? hu)).ne.2.2
  | quoted =>
    obtain rfl := Option.some.inj hu
    exact quote_ne_cr

theorem Written.eq_nil (h : d.Written field []) : field = [] := by
  cases h with
  | bare hfield => rfl

/-- A line that does not start with a CR starts a record. -/
theorem read_line {line : List U} (hne : line ≠ []) (hhead : ∀ u ∈ line.head?, u ≠ d.cr) :
    d.read emptyLine .line line = d.read emptyLine .start line := by
  cases line with
  | nil => exact absurd rfl hne
  | cons u line =>
    have hcr : u ≠ d.cr := hhead u rfl
    rw [read, read, if_neg hcr, if_neg hcr]

/-- **A record on its line.**  An empty line is a record of no field, or of one that is empty. -/
theorem read_record {fields texts : List (List U)} (hwritten : List.Forall₂ d.Written fields texts)
    (hsingle : fields ≠ [[]]) (hempty : fields = [] → emptyLine = [[]]) :
    d.read emptyLine .line (d.joinFields texts ++ d.cr :: d.lf :: rest) =
      (d.read emptyLine .line rest).map fun records => fields :: records := by
  cases hwritten with
  | nil =>
    show d.read emptyLine .line (d.cr :: d.lf :: rest) = _
    rw [read, if_neg cr_ne_separator, if_pos rfl, read, if_pos rfl, hempty rfl]
    rfl
  | @cons field text fields texts hfirst hwritten =>
    have hline : d.joinFields (text :: texts) ≠ [] ∧ ∀ u ∈ (d.joinFields (text :: texts)).head?, u ≠ d.cr := by
      cases hwritten with
      | nil =>
        have hjoin : d.joinFields [text] = text := List.intercalate_singleton
        rw [hjoin]
        refine ⟨fun htext => hsingle ?_, hfirst.head_ne_cr⟩
        subst htext
        rw [hfirst.eq_nil]
      | @cons field' text' fields texts hsecond hwritten =>
        rw [joinFields_cons]
        refine ⟨List.append_ne_nil_of_right_ne_nil _ (List.cons_ne_nil _ _), fun u hu => ?_⟩
        cases text with
        | nil =>
          obtain rfl := Option.some.inj hu
          exact cr_ne_separator.symm
        | cons v text => exact hfirst.head_ne_cr u hu
    have hhead : ∀ u ∈ (d.joinFields (text :: texts) ++ d.cr :: d.lf :: rest).head?, u ≠ d.cr := by
      intro u hu
      rw [List.head?_append_of_ne_nil _ hline.1] at hu
      exact hline.2 u hu
    rw [read_line (List.append_ne_nil_of_left_ne_nil hline.1 _) hhead, read_fields hfirst hwritten]

/-- **The parser reads back a table of written fields.**  A record of one empty field is an empty line, and so
is a record of no field. -/
theorem parse_joinLines {records : List (List (List U))} {texts : List (List (List U))}
    (hwritten : List.Forall₂ (List.Forall₂ d.Written) records texts) (hsingle : [[]] ∉ records)
    (hempty : [] ∈ records → emptyLine = [[]]) :
    d.parse emptyLine (d.joinLines (texts.map d.joinFields)) = some records := by
  unfold parse
  induction hwritten with
  | nil => rfl
  | @cons fields texts records textss hrecord _ ih =>
    have hrest := ih (fun h => hsingle (List.mem_cons_of_mem _ h)) fun h => hempty (List.mem_cons_of_mem _ h)
    have htext : d.joinLines ((texts :: textss).map d.joinFields) =
        d.joinFields texts ++ d.cr :: d.lf :: d.joinLines (textss.map d.joinFields) := by
      unfold joinLines
      rw [List.map_cons, List.flatMap_cons, List.append_assoc]
      rfl
    have hne : fields ≠ [[]] := fun h => hsingle (h ▸ List.mem_cons_self)
    have hnil : fields = [] → emptyLine = [[]] := fun h => hempty (h ▸ List.mem_cons_self)
    rw [htext, read_record hrecord hne hnil, hrest]
    rfl

end Dialect

end Csv

end AgyProxy.Lib

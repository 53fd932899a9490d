import AgyProxy.Host.Pool
import AgyProxy.Js.NumberSpec
import AgyProxy.Js.RegexSpec

/-!
# AgyProxy.Host.ResetDurationSpec — what an announced reset time is read as

* `compactForm`, `verboseForm`: the texts that announce a wait; `Announces`: where they stand.
* `unitCount_component`, `compactMs_form`, `wordMs_retry`: each pattern on such a text.
* `parseResetDurationMs_announced`: **the wait that is announced is the one that is read**, and `recordFailure`
  cools the account down until its end.
* `reset_misread`: a later announcement in the compact form, one in another letter case in front, and partial
  results that no double holds.
-/

namespace AgyProxy

open Js Lib Rx

/-! ### Numbers that a double holds -/

/-- The number is a double. -/
def Exact (n : ℕ) : Prop := roundToDouble (n : ℚ) = .fin n

theorem parseDigits_some {n : ℕ} (h : Exact n) : parseDigits (some (natDigits n)) = .fin n := by
  unfold parseDigits
  rw [Option.getD_some, digitsValue_natDigits]
  exact h

theorem parseDigits_none : parseDigits none = .fin ((0 : ℕ) : ℚ) := by decide +kernel

theorem mul_exact {a b : ℕ} (h : Exact (a * b)) : (Js.Num.fin a).mul (.fin b) = .fin ((a * b : ℕ) : ℚ) := by
  rw [← h, Js.Num.mul, Nat.cast_mul]

/-- A product with a numeral. -/
theorem mul_ofNat {a k : ℕ} [k.AtLeastTwo] (h : Exact (a * OfNat.ofNat k)) :
    (Js.Num.fin a).mul (.fin (OfNat.ofNat k)) = .fin ((a * OfNat.ofNat k : ℕ) : ℚ) := by
  rw [← Nat.cast_ofNat (R := ℚ)]
  exact mul_exact h

theorem add_exact {a b : ℕ} (h : Exact (a + b)) : (Js.Num.fin a).add (.fin b) = .fin ((a + b : ℕ) : ℚ) := by
  rw [← h, Js.Num.add, Nat.cast_add]

/-! ### The texts -/

inductive ResetUnit
  | hour | minute | second

namespace ResetUnit

def word : ResetUnit → JsString
  | hour => js "hour"
  | minute => js "minute"
  | second => js "second"

/-- The first letter in upper case. -/
def letter : ResetUnit → UInt16
  | hour => 0x48
  | minute => 0x4D
  | second => 0x53

def seconds : ResetUnit → ℕ
  | hour => 3600
  | minute => 60
  | second => 1

end ResetUnit

/-- One component of the compact form, omitted when zero. -/
def component (n : ℕ) (letter : UInt16) : JsString := if n = 0 then [] else natDigits n ++ [letter]

/-- `XhYmZs`, with what stands between the components. -/
def compactForm (h m s : ℕ) (gap gap' : JsString) : JsString :=
  component h 0x68 ++ gap ++ (component m 0x6D ++ gap' ++ component s 0x73)

def verboseForm (n : ℕ) (unit : ResetUnit) (plural : Bool) : JsString :=
  natDigits n ++ (js " " ++ (unit.word ++ if plural then js "s" else []))

/-- The text ends, or goes on with a unit that is no white space and no word character (letter, digit, `_`). -/
def Ends (cont : JsString) : Prop := ∀ c ∈ cont.head?, isWordChar c = false ∧ isWhiteSpace c = false

/-! ### One component -/

section Component

variable {letter u : UInt16} {n : ℕ} {gap rest : JsString}

theorem dropWhile_of_head {p : UInt16 → Bool} (h : ∀ c ∈ rest.head?, p c = false) : rest.dropWhile p = rest := by
  cases rest with
  | nil => rfl
  | cons c rest => exact List.dropWhile_cons_of_neg (by rw [h c rfl]; exact Bool.false_ne_true)

theorem dropWhile_gap {p : UInt16 → Bool} (hgap : ∀ c ∈ gap, p c = true) :
    (gap ++ rest).dropWhile p = rest.dropWhile p := List.dropWhile_append_of_pos hgap

theorem takeWhile_natDigits (h : ∀ c ∈ rest.head?, isDigit c = false) :
    (natDigits n ++ rest).takeWhile isDigit = natDigits n := by
  rw [List.takeWhile_append_of_pos (allDigits_natDigits n)]
  cases rest with
  | nil => exact List.append_nil _
  | cons c rest => rw [List.takeWhile_cons_of_neg (by rw [h c rfl]; exact Bool.false_ne_true), List.append_nil]

/-- The head of a gap or of what follows it. -/
theorem head?_gap {p : UInt16 → Bool} (hgap : ∀ c ∈ gap, p c = true) (hu : p u = true) :
    ∀ c ∈ (gap ++ u :: rest).head?, p c = true := by
  intro c hc
  cases gap with
  | nil =>
    obtain rfl := Option.some.inj hc
    exact hu
  | cons d gap =>
    obtain rfl := Option.some.inj hc
    exact hgap d List.mem_cons_self

/-- A number, a gap and a letter. -/
theorem unitCount_number (hgap : ∀ c ∈ gap, isWhiteSpace c = true) (hu : isWhiteSpace u = false)
    (hdigit : isDigit u = false) :
    unitCount letter (natDigits n ++ (gap ++ u :: rest)) =
      if upperUnit u = letter then (some (natDigits n), rest)
      else (none, natDigits n ++ (gap ++ u :: rest)) := by
  have hgap' : ∀ c ∈ gap, (!isDigit c) = true := by
    intro c hc
    cases hd : isDigit c with
    | false => rfl
    | true => exact absurd (hgap c hc) (by rw [digit_not_space hd]; exact Bool.false_ne_true)
  have htake : (natDigits n ++ (gap ++ u :: rest)).takeWhile isDigit = natDigits n := by
    refine takeWhile_natDigits fun c hc => ?_
    have hc' := head?_gap (p := fun c => !isDigit c) hgap' (by rw [hdigit]; rfl) c hc
    exact (Bool.not_eq_true' _).mp hc'
  have hdrop : (gap ++ u :: rest).dropWhile isWhiteSpace = u :: rest := by
    rw [dropWhile_gap hgap, List.dropWhile_cons_of_neg (by rw [hu]; exact Bool.false_ne_true)]
  unfold unitCount
  simp only [htake, List.drop_left, hdrop, ne_eq, natDigits_ne_nil, not_false_eq_true, true_and]

/-- No number, no component. -/
theorem unitCount_none (h : ∀ c ∈ rest.head?, isDigit c = false) : unitCount letter rest = (none, rest) := by
  have htake : rest.takeWhile isDigit = [] := by
    cases rest with
    | nil => rfl
    | cons c rest => exact List.takeWhile_cons_of_neg (by rw [h c rfl]; exact Bool.false_ne_true)
  unfold unitCount
  simp only [htake, List.length_nil, List.drop_zero]
  split
  · rfl
  · rw [if_neg fun h => h.1 rfl]

theorem component_cons (hn : n ≠ 0) : component n u ++ rest = natDigits n ++ ([] ++ u :: rest) := by
  unfold component
  rw [if_neg hn, List.append_assoc]
  rfl

theorem dropWhile_natDigits : (natDigits n ++ rest).dropWhile isWhiteSpace = natDigits n ++ rest := by
  refine dropWhile_of_head fun c hc => digit_not_space (allDigits_natDigits n c ?_)
  rw [List.head?_append_of_ne_nil _ (natDigits_ne_nil n)] at hc
  exact List.mem_of_mem_head? hc

/-- A component of another letter is left alone. -/
theorem unitCount_foreign (hu : isWhiteSpace u = false) (hdigit : isDigit u = false) (hother : upperUnit u ≠ letter)
    (hrest : unitCount letter (rest.dropWhile isWhiteSpace) = (none, rest.dropWhile isWhiteSpace)) :
    unitCount letter ((component n u ++ rest).dropWhile isWhiteSpace) =
      (none, (component n u ++ rest).dropWhile isWhiteSpace) := by
  by_cases hn : n = 0
  · unfold component
    rw [if_pos hn]
    exact hrest
  · rw [component_cons hn, dropWhile_natDigits, unitCount_number (fun c hc => absurd hc List.not_mem_nil) hu hdigit,
      if_neg hother]

/-- **A component of the letter is read**, and one that is omitted counts nothing. -/
theorem unitCount_component (hu : isWhiteSpace u = false) (hdigit : isDigit u = false) (hletter : upperUnit u = letter)
    (hrest : unitCount letter (rest.dropWhile isWhiteSpace) = (none, rest.dropWhile isWhiteSpace)) :
    (unitCount letter ((component n u ++ rest).dropWhile isWhiteSpace)).1 =
        (if n = 0 then none else some (natDigits n)) ∧
      (unitCount letter ((component n u ++ rest).dropWhile isWhiteSpace)).2.dropWhile isWhiteSpace =
        rest.dropWhile isWhiteSpace := by
  by_cases hn : n = 0
  · have hcomponent : component n u ++ rest = rest := by
      unfold component
      rw [if_pos hn, List.nil_append]
    rw [hcomponent, hrest, if_pos hn]
    exact ⟨rfl, List.dropWhile_idempotent _ _⟩
  · rw [component_cons hn, dropWhile_natDigits, unitCount_number (fun c hc => absurd hc List.not_mem_nil) hu hdigit,
      if_pos hletter, if_neg hn]
    exact ⟨rfl, rfl⟩

/-- What the components of the compact form add up to, from the text behind the header. -/
def compactTotal (after : JsString) : Js.Num :=
  let hours := unitCount 0x48 after
  let minutes := unitCount 0x4D (hours.2.dropWhile isWhiteSpace)
  let seconds := unitCount 0x53 (minutes.2.dropWhile isWhiteSpace)
  ((((parseDigits hours.1).mul (.fin 3600)).add ((parseDigits minutes.1).mul (.fin 60))).add
    (parseDigits seconds.1)).mul (.fin 1000)

/-- The results on the way to a wait are doubles. -/
structure ExactSum (h m s : ℕ) : Prop where
  hours : Exact h
  hourSeconds : Exact (h * 3600)
  minutes : Exact m
  minuteSeconds : Exact (m * 60)
  seconds : Exact s
  partialSum : Exact (h * 3600 + m * 60)
  sum : Exact (h * 3600 + m * 60 + s)
  total : Exact ((h * 3600 + m * 60 + s) * 1000)

theorem ExactSum.compute {h m s : ℕ} (e : ExactSum h m s) :
    ((((Js.Num.fin h).mul (.fin 3600)).add ((Js.Num.fin m).mul (.fin 60))).add (.fin s)).mul (.fin 1000) =
      .fin (((h * 3600 + m * 60 + s) * 1000 : ℕ) : ℚ) := by
  rw [mul_ofNat e.hourSeconds, mul_ofNat e.minuteSeconds, add_exact e.partialSum, add_exact e.sum, mul_ofNat e.total]

/-- The group of a component. -/
theorem parseDigits_component (h : Exact n) : parseDigits (if n = 0 then none else some (natDigits n)) = .fin n := by
  split_ifs with hn
  · rw [parseDigits_none, hn]
  · exact parseDigits_some h

end Component

/-- **The compact form adds up**, behind any white space. -/
theorem compactTotal_form {h m s : ℕ} {gap gap' cont : JsString} (e : ExactSum h m s)
    (hgap : ∀ c ∈ gap, isWhiteSpace c = true) (hgap' : ∀ c ∈ gap', isWhiteSpace c = true) (hends : Ends cont) :
    compactTotal ((compactForm h m s gap gap' ++ cont).dropWhile isWhiteSpace) =
      .fin (((h * 3600 + m * 60 + s) * 1000 : ℕ) : ℚ) := by
  have hcont : cont.dropWhile isWhiteSpace = cont := dropWhile_of_head fun c hc => (hends c hc).2
  have hdigit : ∀ c ∈ cont.head?, isDigit c = false := by
    intro c hc
    cases hd : isDigit c with
    | false => rfl
    | true =>
      have hword : isWordChar c = true := by
        unfold isWordChar isDigit at *
        simp [hd]
      exact hword.symm.trans (hends c hc).1
  have htext : compactForm h m s gap gap' ++ cont =
      component h 0x68 ++ (gap ++ (component m 0x6D ++ (gap' ++ (component s 0x73 ++ cont)))) := by
    unfold compactForm
    simp only [List.append_assoc]
  have hnone : ∀ letter, unitCount letter (cont.dropWhile isWhiteSpace) = (none, cont.dropWhile isWhiteSpace) := by
    intro letter
    rw [hcont]
    exact unitCount_none hdigit
  -- from the last component to the first: each is read, and is foreign to the letters before it
  have hseconds := unitCount_component (n := s) rfl rfl (show upperUnit 0x73 = 0x53 from rfl) (hnone 0x53)
  have hforeign : ∀ letter, upperUnit 0x73 ≠ letter →
      unitCount letter ((gap' ++ (component s 0x73 ++ cont)).dropWhile isWhiteSpace) =
        (none, (gap' ++ (component s 0x73 ++ cont)).dropWhile isWhiteSpace) := by
    intro letter hother
    rw [dropWhile_gap hgap']
    exact unitCount_foreign rfl rfl hother (hnone letter)
  have hminutes := unitCount_component (n := m) rfl rfl (show upperUnit 0x6D = 0x4D from rfl)
    (hforeign 0x4D (by decide))
  have hforeign' : unitCount 0x48 ((gap ++ (component m 0x6D ++ (gap' ++ (component s 0x73 ++ cont)))).dropWhile
      isWhiteSpace) =
        (none, (gap ++ (component m 0x6D ++ (gap' ++ (component s 0x73 ++ cont)))).dropWhile isWhiteSpace) := by
    rw [dropWhile_gap hgap]
    exact unitCount_foreign rfl rfl (by decide) (hforeign 0x48 (by decide))
  have hhours := unitCount_component (n := h) rfl rfl (show upperUnit 0x68 = 0x48 from rfl) hforeign'
  unfold compactTotal
  dsimp only
  rw [htext, hhours.1, hhours.2, dropWhile_gap hgap, hminutes.1, hminutes.2, dropWhile_gap hgap', hseconds.1,
    parseDigits_component e.hours, parseDigits_component e.minutes, parseDigits_component e.seconds]
  exact e.compute

/-- The first letter of the unit and the others. -/
theorem verboseForm_eq (n : ℕ) (unit : ResetUnit) (plural : Bool) (cont : JsString) :
    ∃ u rest, verboseForm n unit plural ++ cont = natDigits n ++ ([0x20] ++ u :: rest) ∧ upperUnit u = unit.letter ∧
      isWhiteSpace u = false ∧ isDigit u = false ∧ rest.dropWhile isWhiteSpace = rest ∧
        ∀ letter, unitCount letter rest = (none, rest) := by
  have htext : verboseForm n unit plural ++ cont =
      natDigits n ++ ([0x20] ++ (unit.word ++ ((if plural then js "s" else []) ++ cont))) := by
    unfold verboseForm
    simp only [List.append_assoc]
    rfl
  cases unit with
  | hour => exact ⟨0x68, js "our" ++ ((if plural then js "s" else []) ++ cont), htext, rfl, rfl, rfl, rfl, fun _ => rfl⟩
  | minute =>
    exact ⟨0x6D, js "inute" ++ ((if plural then js "s" else []) ++ cont), htext, rfl, rfl, rfl, rfl, fun _ => rfl⟩
  | second =>
    exact ⟨0x73, js "econd" ++ ((if plural then js "s" else []) ++ cont), htext, rfl, rfl, rfl, rfl, fun _ => rfl⟩

/-- The hours, minutes and seconds of a single count. -/
def ResetUnit.split (n : ℕ) : ResetUnit → ℕ × ℕ × ℕ
  | hour => (n, 0, 0)
  | minute => (0, n, 0)
  | second => (0, 0, n)

/-- **A single count with its unit**, as the compact pattern reads it: up to the unit's first letter. -/
theorem compactTotal_verbose {n : ℕ} {unit : ResetUnit} {plural : Bool} {cont : JsString}
    (e : ExactSum (unit.split n).1 (unit.split n).2.1 (unit.split n).2.2) :
    compactTotal ((verboseForm n unit plural ++ cont).dropWhile isWhiteSpace) =
      .fin ((n * unit.seconds * 1000 : ℕ) : ℚ) := by
  obtain ⟨u, rest, htext, hletter, hu, hdigit, hdrop, hnone⟩ := verboseForm_eq n unit plural cont
  have hgap : ∀ c ∈ [(0x20 : UInt16)], isWhiteSpace c = true := forall_units (by decide)
  have hown : unitCount unit.letter (natDigits n ++ ([0x20] ++ u :: rest)) = (some (natDigits n), rest) := by
    rw [unitCount_number hgap hu hdigit, if_pos hletter]
  have hother : ∀ letter, unit.letter ≠ letter →
      unitCount letter (natDigits n ++ ([0x20] ++ u :: rest)) = (none, natDigits n ++ ([0x20] ++ u :: rest)) := by
    intro letter hne
    rw [unitCount_number hgap hu hdigit, hletter, if_neg hne]
  have hsum := e.compute
  unfold compactTotal
  dsimp only
  rw [htext, dropWhile_natDigits]
  cases unit with
  | hour =>
    have hn : parseDigits (some (natDigits n)) = .fin n := parseDigits_some e.hours
    have hhours : unitCount 0x48 (natDigits n ++ ([0x20] ++ u :: rest)) = _ := hown
    rw [hhours]
    simp only [hdrop, hnone, parseDigits_none, hn]
    refine hsum.trans ?_
    simp [ResetUnit.split, ResetUnit.seconds]
  | minute =>
    have hn : parseDigits (some (natDigits n)) = .fin n := parseDigits_some e.minutes
    have hminutes : unitCount 0x4D (natDigits n ++ ([0x20] ++ u :: rest)) = _ := hown
    rw [hother 0x48 (by decide), dropWhile_natDigits, hminutes]
    simp only [hdrop, hnone, parseDigits_none, hn]
    refine hsum.trans ?_
    simp [ResetUnit.split, ResetUnit.seconds]
  | second =>
    have hn : parseDigits (some (natDigits n)) = .fin n := parseDigits_some e.seconds
    have hseconds : unitCount 0x53 (natDigits n ++ ([0x20] ++ u :: rest)) = _ := hown
    rw [hother 0x48 (by decide), dropWhile_natDigits, hother 0x4D (by decide), dropWhile_natDigits, hseconds]
    simp only [parseDigits_none, hn]
    refine hsum.trans ?_
    simp [ResetUnit.split, ResetUnit.seconds]

/-! ### Where the patterns match -/

/-- The word does not start inside `x`, in front of `s`, in any letter case. -/
def Apart (word x s : JsString) : Prop :=
  ∀ k < x.length, word.isPrefixOf (((x ++ s).drop k).map upperUnit) = false

section Apart

variable {word x y s : JsString}

theorem Apart.append (hx : Apart word x (y ++ s)) (hy : Apart word y s) : Apart word (x ++ y) s := by
  intro k hk
  rw [List.append_assoc]
  by_cases hkx : k < x.length
  · exact hx k hkx
  · have hk' : k - x.length < y.length := by
      rw [List.length_append] at hk
      omega
    rw [List.drop_append, List.drop_eq_nil_of_le (Nat.le_of_not_lt hkx), List.nil_append]
    exact hy _ hk'

/-- A text without the word, and no part of the word at its end that the next text completes. -/
theorem Apart.of_absent (habsent : ¬ word <:+: x.map upperUnit)
    (hnext : ∀ k, 0 < k → k < word.length → (word.drop k).isPrefixOf (s.map upperUnit) = false) : Apart word x s := by
  intro k hk
  rw [← Bool.not_eq_true, List.isPrefixOf_iff_prefix, List.drop_append_of_le_length hk.le, List.map_append]
  intro hprefix
  by_cases hlength : word.length ≤ (x.drop k).length
  · have hword : word <+: (x.drop k).map upperUnit :=
      List.prefix_of_prefix_length_le hprefix (List.prefix_append _ _) (by rwa [List.length_map])
    rw [List.map_drop] at hword
    exact habsent (hword.isInfix.trans (List.drop_suffix _ _).isInfix)
  · have hpos : 0 < (x.drop k).length := by
      rw [List.length_drop]
      omega
    have hrest := hprefix.drop ((x.drop k).map upperUnit).length
    rw [List.drop_left, List.length_map] at hrest
    have hfalse := hnext _ hpos (Nat.lt_of_not_le hlength)
    rw [List.isPrefixOf_iff_prefix.mpr hrest] at hfalse
    cases hfalse

/-- The next text goes on with a unit that the word has not behind its first. -/
theorem next_of_head (hhead : ∀ c ∈ s.head?, upperUnit c ∉ word.tail) {k : ℕ} (hk : 0 < k) (hlt : k < word.length) :
    (word.drop k).isPrefixOf (s.map upperUnit) = false := by
  obtain ⟨u, rest, hdrop⟩ : ∃ u rest, word.drop k = u :: rest := List.exists_cons_of_ne_nil (by
    rw [ne_eq, List.drop_eq_nil_iff]
    omega)
  have hmem : u ∈ word.tail := by
    have hu : u ∈ word.drop k := hdrop ▸ List.mem_cons_self
    rw [← List.drop_one]
    obtain ⟨j, rfl⟩ := Nat.exists_eq_add_of_lt hk
    rw [show 0 + j + 1 = 1 + j by omega, ← List.drop_drop] at hu
    exact List.mem_of_mem_drop hu
  rw [hdrop]
  cases s with
  | nil => rfl
  | cons c s =>
    have hne : u ≠ upperUnit c := fun h => hhead c rfl (h ▸ hmem)
    rw [List.map_cons, List.isPrefixOf_cons_cons, beq_eq_false_iff_ne.mpr hne, Bool.false_and]

end Apart

theorem reset_upper : (js "reset").map upperUnit = js "RESET" := by decide

theorem retry_upper : (js "retry").map upperUnit = js "RETRY" := by decide

theorem compactRx_never {s : JsString} (h : (js "RESET").isPrefixOf (s.map upperUnit) = false) : Never compactRx s :=
  (Never.litI (reset_upper ▸ h)).seq.seq.seq.seq

theorem wordRx_never {s : JsString} (h : (js "RESET").isPrefixOf (s.map upperUnit) = false)
    (h' : (js "RETRY").isPrefixOf (s.map upperUnit) = false) : Never wordRx s :=
  ((Never.litI (reset_upper ▸ h)).seq.alt (Never.litI (retry_upper ▸ h'))).seq.seq.seq.seq.seq.seq.seq

theorem compactRx_skips {x s : JsString} (h : Apart (js "RESET") x s) : Skips compactRx x s := fun k hk =>
  compactRx_never (h k hk)

theorem wordRx_skips {x s : JsString} (h : Apart (js "RESET") x s) (h' : Apart (js "RETRY") x s) : Skips wordRx x s :=
  fun k hk => wordRx_never (h k hk) (h' k hk)

/-! ### The header of the compact pattern -/

theorem head?_dropWhile {p : UInt16 → Bool} (s : JsString) : ∀ c ∈ (s.dropWhile p).head?, p c = false := by
  induction s with
  | nil => exact fun c hc => nomatch hc
  | cons d s ih =>
    intro c hc
    by_cases hd : p d = true
    · rw [List.dropWhile_cons_of_pos hd] at hc
      exact ih c hc
    · rw [List.dropWhile_cons_of_neg hd] at hc
      obtain rfl := Option.some.inj hc
      exact Bool.eq_false_of_not_eq_true hd

/-- `Resets in ` in any letter case of its first word. -/
theorem compactRx_first {w : JsString} (hw : w.map upperUnit = js "RESET") (after : JsString) :
    First compactRx (w ++ (js "s" ++ (js " " ++ (js "in" ++ (js " " ++ after))))) (after.dropWhile isWhiteSpace) := by
  have hreset : First (litI (js "reset")) (w ++ (js "s" ++ (js " " ++ (js "in" ++ (js " " ++ after)))))
      (js "s" ++ (js " " ++ (js "in" ++ (js " " ++ after)))) := First.litI (hw.trans reset_upper.symm)
  have hplural : First (opt (litI (js "s"))) (js "s" ++ (js " " ++ (js "in" ++ (js " " ++ after))))
      (js " " ++ (js "in" ++ (js " " ++ after))) := (First.litI rfl).opt
  have hspace : First (many isWhiteSpace 1) (js " " ++ (js "in" ++ (js " " ++ after)))
      (js "in" ++ (js " " ++ after)) :=
    First.many (forall_units (by decide)) (fun c hc => Option.some.inj hc ▸ rfl) (by decide)
  have hin : First (litI (js "in")) (js "in" ++ (js " " ++ after)) (js " " ++ after) := First.litI rfl
  have hspaces : First (many isWhiteSpace 1) (js " " ++ after) (after.dropWhile isWhiteSpace) := by
    have hsplit : js " " ++ after = (js " " ++ after.takeWhile isWhiteSpace) ++ after.dropWhile isWhiteSpace := by
      rw [List.append_assoc, List.takeWhile_append_dropWhile]
    rw [hsplit]
    refine First.many ?_ (head?_dropWhile after) (by rw [List.length_append]; exact Nat.le_add_right 1 _)
    refine List.forall_mem_append.mpr ⟨forall_units (by decide), fun c hc => ?_⟩
    exact (List.mem_takeWhile_imp hc)
  exact (((hreset.seq hplural).seq hspace).seq hin).seq hspaces

/-- What the compact pattern makes of the text that its first match leaves. -/
theorem compactMs_eq (text : JsString) :
    compactMs text = ((compactRx.exec text).map Rx.Match.after).bind fun after =>
      if (compactTotal after).isPositive then some (compactTotal after) else none := by
  unfold compactMs
  cases compactRx.exec text with
  | none => rfl
  | some m => rfl

/-- A text in front of which the word of the header stands apart. -/
structure NoReset (before : JsString) : Prop where
  reset : ¬ js "RESET" <:+: before.map upperUnit
  retry : ¬ js "RETRY" <:+: before.map upperUnit

/-- **The compact pattern behind `Resets in `.** -/
theorem compactMs_header {before w after : JsString} (hbefore : NoReset before) (hw : w.map upperUnit = js "RESET")
    (hpositive : (compactTotal (after.dropWhile isWhiteSpace)).isPositive = true) :
    compactMs (before ++ (w ++ (js "s" ++ (js " " ++ (js "in" ++ (js " " ++ after)))))) =
      some (compactTotal (after.dropWhile isWhiteSpace)) := by
  have hapart : Apart (js "RESET") before (w ++ (js "s" ++ (js " " ++ (js "in" ++ (js " " ++ after))))) := by
    refine Apart.of_absent hbefore.reset fun k hk hlt => ?_
    refine next_of_head (fun c hc => ?_) hk hlt
    have hne : w ≠ [] := by
      rintro rfl
      exact absurd hw (by decide)
    rw [List.head?_append_of_ne_nil _ hne] at hc
    have hhead : (w.map upperUnit).head? = some (upperUnit c) := by
      rw [List.head?_map, Option.mem_def.mp hc]
      rfl
    rw [hw] at hhead
    rw [← Option.some.inj hhead]
    decide
  obtain ⟨m, hm, -, hafter⟩ := exec_of_first (compactRx_skips hapart) (compactRx_first hw after) (by
    intro h
    exact absurd (List.append_eq_nil_iff.mp h).2 (List.cons_ne_nil _ _))
  rw [compactMs_eq, hm, Option.map_some, hafter, Option.bind_some, if_pos hpositive]

/-! ### The word pattern -/

/-- `retry after ` in front of a count with its unit. -/
def retryForm (w : JsString) (n : ℕ) (unit : ResetUnit) (plural : Bool) : JsString :=
  w ++ js " after " ++ verboseForm n unit plural

/-- `retry`, at the start of a sentence or inside one. -/
def IsRetry (w : JsString) : Prop := w = js "retry" ∨ w = js "Retry"

section Retry

variable {w cont : JsString} {n : ℕ} {unit : ResetUnit} {plural : Bool}

theorem IsRetry.upper (h : IsRetry w) : w.map upperUnit = js "RETRY" := by
  rcases h with rfl | rfl
  · rfl
  · rfl

/-- Outside the word characters letter case changes nothing. -/
theorem upperUnit_noWord {c : UInt16} (h : isWordChar c = false) : isWordChar (upperUnit c) = false := by
  have hupper : upperUnit c = c := by
    unfold upperUnit
    refine if_neg fun hlower => ?_
    unfold isWordChar at h
    rw [hlower, Bool.or_true, Bool.true_or, Bool.true_or] at h
    cases h
  rw [hupper]
  exact h

theorem Ends.notMem (h : Ends cont) {word : JsString} (hword : ∀ u ∈ word, isWordChar u = true) :
    ∀ c ∈ cont.head?, upperUnit c ∉ word := by
  intro c hc hmem
  have hnot := upperUnit_noWord (h c hc).1
  rw [hword _ hmem] at hnot
  cases hnot

/-- The plural of the unit, and what follows it. -/
theorem plural_first (hends : Ends cont) :
    First (opt (litI (js "s"))) ((if plural then js "s" else []) ++ cont) cont := by
  cases plural with
  | true => exact (First.litI rfl).opt
  | false =>
    refine First.optNone (Never.litI ?_)
    have hhead : ∀ c ∈ cont.head?, upperUnit c ∉ js "S" := hends.notMem (forall_units (by decide))
    cases cont with
    | nil => rfl
    | cons c cont =>
      have hne : (0x53 : UInt16) ≠ upperUnit c := fun h => hhead c rfl (h ▸ List.mem_cons_self)
      show ((0x53 : UInt16) == upperUnit c && _) = false
      rw [beq_eq_false_iff_ne.mpr hne, Bool.false_and]

theorem unit_first (rest : JsString) :
    First (alts ([js "hour", js "hr", js "minute", js "min", js "second", js "sec"].map litI))
      (unit.word ++ rest) rest := by
  cases unit with
  | hour => exact (First.litI rfl).altLeft
  | minute => exact First.altRight (Never.litI rfl) (First.altRight (Never.litI rfl) (First.litI rfl).altLeft)
  | second =>
    exact First.altRight (Never.litI rfl) (First.altRight (Never.litI rfl) (First.altRight (Never.litI rfl)
      (First.altRight (Never.litI rfl) (First.litI rfl).altLeft)))

theorem retryForm_append : retryForm w n unit plural ++ cont =
    w ++ (js " " ++ (js "after" ++ (js " " ++ (natDigits n ++ (js " " ++ (unit.word ++
      ((if plural then js "s" else []) ++ cont))))))) := by
  have hafter : js " after " = js " " ++ (js "after" ++ js " ") := rfl
  unfold retryForm verboseForm
  rw [hafter]
  simp only [List.append_assoc]

theorem wordRx_first (hw : IsRetry w) (hends : Ends cont) : First wordRx (retryForm w n unit plural ++ cont) cont := by
  have hdigits : ∀ c ∈ natDigits n, isDigit c = true := allDigits_natDigits n
  have hlength : 1 ≤ (natDigits n).length := List.length_pos_iff.mpr (natDigits_ne_nil n)
  have hspace : ∀ {rest : JsString} {least : ℕ}, least ≤ 1 → (∀ c ∈ rest.head?, isWhiteSpace c = false) →
      First (many isWhiteSpace least) (js " " ++ rest) rest :=
    fun hleast hrest => First.many (forall_units (by decide)) hrest hleast
  rw [retryForm_append]
  have hnever : Never (seq (litI (js "reset")) (opt (litI (js "s")))) (w ++ (js " " ++ (js "after" ++ (js " " ++
      (natDigits n ++ (js " " ++ (unit.word ++ ((if plural then js "s" else []) ++ cont)))))))) := by
    refine (Never.litI ?_).seq
    rcases hw with rfl | rfl
    · rfl
    · rfl
  refine ((((((First.seq (First.altRight hnever (First.litI (hw.upper.trans retry_upper.symm)))
    (hspace le_rfl ?_)).seq (First.altRight (Never.litI rfl) (First.litI rfl))).seq (hspace le_rfl ?_)).seq
      (First.many hdigits ?_ hlength)).seq (hspace (Nat.zero_le 1) ?_)).seq (unit_first _)).seq (plural_first hends)
  · exact fun c hc => Option.some.inj hc ▸ rfl
  · intro c hc
    rw [List.head?_append_of_ne_nil _ (natDigits_ne_nil n)] at hc
    exact digit_not_space (hdigits c (List.mem_of_mem_head? hc))
  · exact fun c hc => Option.some.inj hc ▸ rfl
  · cases unit with
    | hour => exact fun c hc => Option.some.inj hc ▸ rfl
    | minute => exact fun c hc => Option.some.inj hc ▸ rfl
    | second => exact fun c hc => Option.some.inj hc ▸ rfl

/-- In front of `retry` no word of a header is completed. -/
theorem apart_retry {before : JsString} (hbefore : NoReset before) (hw : IsRetry w) (rest : JsString) :
    Apart (js "RESET") before (w ++ rest) ∧ Apart (js "RETRY") before (w ++ rest) := by
  have hnext : ∀ word : JsString, word = js "RESET" ∨ word = js "RETRY" → ∀ k, 0 < k → k < word.length →
      (word.drop k).isPrefixOf ((w ++ rest).map upperUnit) = false := by
    intro word hword k hk hlt
    have hlength : word.length = 5 := by
      rcases hword with rfl | rfl
      · rfl
      · rfl
    obtain rfl | rfl | rfl | rfl : k = 1 ∨ k = 2 ∨ k = 3 ∨ k = 4 := by omega
    all_goals
      rcases hword with rfl | rfl
      · rw [List.map_append, hw.upper]
        rfl
      · rw [List.map_append, hw.upper]
        rfl
  exact ⟨Apart.of_absent hbefore.reset (hnext _ (Or.inl rfl)), Apart.of_absent hbefore.retry (hnext _ (Or.inr rfl))⟩

theorem upperUnit_digit {u : UInt16} (hu : isDigit u = true) : isDigit (upperUnit u) = true := by
  have hupper : upperUnit u = u := by
    unfold upperUnit
    refine if_neg fun hlower => ?_
    rw [Bool.and_eq_true, decide_eq_true_eq, decide_eq_true_eq, UInt16.le_iff_toNat_le] at hlower
    have hdigit := isDigit_toNat hu
    have hlow : (0x61 : UInt16).toNat = 0x61 := rfl
    omega
  rw [hupper]
  exact hu

/-- No header of the compact pattern starts in the announcement. -/
theorem apart_retryForm (hw : IsRetry w) (hends : Ends cont) :
    Apart (js "RESET") (retryForm w n unit plural) cont := by
  have hnumber : ∀ rest, Apart (js "RESET") (natDigits n) rest := by
    intro rest k hk
    rw [List.drop_append_of_le_length hk.le]
    obtain ⟨u, tail, htail⟩ := List.exists_cons_of_ne_nil (List.drop_eq_nil_iff.not.mpr (Nat.not_le.mpr hk))
    have hu : isDigit u = true := allDigits_natDigits n u (List.mem_of_mem_drop (htail ▸ List.mem_cons_self))
    have hne : (0x52 : UInt16) ≠ upperUnit u := (digit_ne (upperUnit_digit hu) (by decide)).symm
    rw [htail]
    show ((0x52 : UInt16) == upperUnit u && _) = false
    rw [beq_eq_false_iff_ne.mpr hne, Bool.false_and]
  have hhead : ∀ c ∈ cont.head?, upperUnit c ∉ (js "RESET").tail :=
    hends.notMem (forall_units (by decide))
  have hunit : Apart (js "RESET") (js " " ++ (unit.word ++ if plural then js "s" else [])) cont := by
    refine Apart.of_absent ?_ fun k hk hlt => next_of_head hhead hk hlt
    cases unit <;> cases plural <;> decide
  have hafter : Apart (js "RESET") (w ++ js " after ") (verboseForm n unit plural ++ cont) := by
    refine Apart.of_absent ?_ fun k hk hlt => next_of_head (fun c hc => ?_) hk hlt
    · rcases hw with rfl | rfl
      · decide
      · decide
    · unfold verboseForm at hc
      rw [List.append_assoc, List.head?_append_of_ne_nil _ (natDigits_ne_nil n)] at hc
      have hu : isDigit c = true := allDigits_natDigits n c (List.mem_of_mem_head? hc)
      have hletters : ∀ u ∈ (js "RESET").tail, isDigit u = false := forall_units (by decide)
      exact fun hmem => Bool.false_ne_true ((hletters _ hmem).symm.trans (upperUnit_digit hu))
  have hverbose : Apart (js "RESET") (verboseForm n unit plural) cont := Apart.append (hnumber _) hunit
  exact Apart.append hafter hverbose

/-- In front of the announcement no word of a header is completed. -/
theorem apart_before_retryForm {before : JsString} (hbefore : NoReset before) (hw : IsRetry w) :
    Apart (js "RESET") before (retryForm w n unit plural ++ cont) ∧
      Apart (js "RETRY") before (retryForm w n unit plural ++ cont) := by
  rw [retryForm_append]
  exact apart_retry hbefore hw _

/-- **The compact pattern passes the announcement over** and looks behind it. -/
theorem compactMs_retry {before : JsString} (hbefore : NoReset before) (hw : IsRetry w) (hends : Ends cont) :
    compactMs (before ++ (retryForm w n unit plural ++ cont)) = compactMs cont := by
  have hskips : Skips compactRx (before ++ retryForm w n unit plural) cont :=
    compactRx_skips (Apart.append (apart_before_retryForm hbefore hw).1 (apart_retryForm hw hends))
  rw [compactMs_eq, compactMs_eq, ← List.append_assoc, exec_skip rfl hskips]

/-- The count starts behind the verb. -/
theorem counted_retryForm (hw : IsRetry w) :
    (retryForm w n unit plural).dropWhile (fun c => !isDigit c) = verboseForm n unit plural := by
  unfold retryForm
  rw [dropWhile_gap, dropWhile_of_head]
  · intro c hc
    unfold verboseForm at hc
    rw [List.head?_append_of_ne_nil _ (natDigits_ne_nil n)] at hc
    rw [allDigits_natDigits n c (List.mem_of_mem_head? hc)]
    rfl
  · rcases hw with rfl | rfl
    · exact forall_units (by decide)
    · exact forall_units (by decide)

/-- A count and the first letter of its unit, as the word pattern takes them apart. -/
theorem takeApart_verboseForm (n : ℕ) (unit : ResetUnit) (plural : Bool) :
    (verboseForm n unit plural).takeWhile isDigit = natDigits n ∧
      ((((verboseForm n unit plural).dropWhile isDigit).dropWhile isWhiteSpace).head?).map upperUnit =
        some unit.letter := by
  obtain ⟨u, rest, htext, hletter, hu, -, -, -⟩ := verboseForm_eq n unit plural []
  rw [List.append_nil] at htext
  rw [htext]
  refine ⟨takeWhile_natDigits fun c hc => Option.some.inj hc ▸ rfl, ?_⟩
  have hspace : ([0x20] ++ u :: rest).dropWhile isDigit = [0x20] ++ u :: rest := rfl
  rw [dropWhile_gap (allDigits_natDigits n), hspace, dropWhile_gap (forall_units (by decide)),
    List.dropWhile_cons_of_neg (by rw [hu]; exact Bool.false_ne_true), List.head?_cons, Option.map_some, hletter]

/-- **The word pattern reads the announcement.** -/
theorem wordMs_retry {before : JsString} (hbefore : NoReset before) (hw : IsRetry w) (hends : Ends cont)
    (e : ExactSum (unit.split n).1 (unit.split n).2.1 (unit.split n).2.2) :
    wordMs (before ++ (retryForm w n unit plural ++ cont)) = some (.fin ((n * unit.seconds * 1000 : ℕ) : ℚ)) := by
  have hreset : Apart (js "RESET") before (retryForm w n unit plural ++ cont) := (apart_before_retryForm hbefore hw).1
  have hretry : Apart (js "RETRY") before (retryForm w n unit plural ++ cont) := (apart_before_retryForm hbefore hw).2
  have hne : retryForm w n unit plural ++ cont ≠ [] := by
    rw [retryForm_append]
    rcases hw with rfl | rfl
    · exact List.cons_ne_nil _ _
    · exact List.cons_ne_nil _ _
  have hfirst : First wordRx (retryForm w n unit plural ++ cont) cont := wordRx_first hw hends
  obtain ⟨m, hm, hmatched, -⟩ := exec_of_first (wordRx_skips hreset hretry) hfirst hne
  rw [List.length_append, Nat.add_sub_cancel, List.take_left] at hmatched
  obtain ⟨hnumber, hletter⟩ := takeApart_verboseForm n unit plural
  unfold wordMs
  rw [hm]
  dsimp only
  rw [hmatched, counted_retryForm hw, hnumber, hletter]
  cases unit with
  | hour =>
    have hn : parseDigits (some (natDigits n)) = .fin n := parseDigits_some e.hours
    have hseconds : Exact (n * 3600) := e.hourSeconds
    have htotal : Exact (n * 3600 * 1000) := by simpa [ResetUnit.split] using e.total
    show some (((parseDigits (some (natDigits n))).mul (.fin 3600)).mul (.fin 1000)) = _
    rw [hn, mul_ofNat hseconds, mul_ofNat htotal]
    rfl
  | minute =>
    have hn : parseDigits (some (natDigits n)) = .fin n := parseDigits_some e.minutes
    have hseconds : Exact (n * 60) := e.minuteSeconds
    have htotal : Exact (n * 60 * 1000) := by simpa [ResetUnit.split] using e.total
    show some (((parseDigits (some (natDigits n))).mul (.fin 60)).mul (.fin 1000)) = _
    rw [hn, mul_ofNat hseconds, mul_ofNat htotal]
    rfl
  | second =>
    have hn : parseDigits (some (natDigits n)) = .fin n := parseDigits_some e.seconds
    have htotal : Exact (n * 1000) := by simpa [ResetUnit.split] using e.total
    show some ((parseDigits (some (natDigits n))).mul (.fin 1000)) = _
    rw [hn, mul_ofNat htotal]
    rw [ResetUnit.seconds, Nat.mul_one]

end Retry

/-! ### What is read, and the cooldown -/

/-- The announcements of a wait, as hours, minutes and seconds, in front of `cont`. -/
inductive Announces (cont : JsString) : ℕ × ℕ × ℕ → JsString → Prop
  | compact {h m s : ℕ} {gap gap' : JsString} : (∀ c ∈ gap, isWhiteSpace c = true) →
      (∀ c ∈ gap', isWhiteSpace c = true) → Announces cont (h, m, s) (js "Resets in " ++ compactForm h m s gap gap')
  | resetsIn {w : JsString} {n : ℕ} {unit : ResetUnit} {plural : Bool} : w = js "Resets in " ∨ w = js "resets in " →
      Announces cont (unit.split n) (w ++ verboseForm n unit plural)
  | retryAfter {w : JsString} {n : ℕ} {unit : ResetUnit} {plural : Bool} : IsRetry w → compactMs cont = none →
      Announces cont (unit.split n) (retryForm w n unit plural)

def waitMs (t : ℕ × ℕ × ℕ) : ℕ := (t.1 * 3600 + t.2.1 * 60 + t.2.2) * 1000

theorem waitMs_split (n : ℕ) (unit : ResetUnit) : waitMs (unit.split n) = n * unit.seconds * 1000 := by
  cases unit <;> simp [waitMs, ResetUnit.split, ResetUnit.seconds]

theorem isPositive_natCast {n : ℕ} (h : 0 < n) : (Js.Num.fin (n : ℚ)).isPositive = true :=
  decide_eq_true (Nat.cast_pos.mpr h)

section Announced

variable {cont before text : JsString} {t : ℕ × ℕ × ℕ}

theorem Announces.ne_nil (h : Announces cont t text) : text ≠ [] := by
  cases h with
  | compact hgap hgap' => exact List.cons_ne_nil _ _
  | resetsIn hw =>
    rcases hw with rfl | rfl
    · exact List.cons_ne_nil _ _
    · exact List.cons_ne_nil _ _
  | retryAfter hw hcont =>
    rcases hw with rfl | rfl
    · exact List.cons_ne_nil _ _
    · exact List.cons_ne_nil _ _

theorem Announces.message_ne_nil (h : Announces cont t text) : before ++ (text ++ cont) ≠ [] :=
  List.append_ne_nil_of_right_ne_nil _ (List.append_ne_nil_of_left_ne_nil h.ne_nil _)

/-- **The announced wait is read.** -/
theorem parseResetDurationMs_eq (dateParse : JsString → Option ℤ) (now : ℕ) (h : Announces cont t text)
    (hbefore : NoReset before) (hends : Ends cont) (e : ExactSum t.1 t.2.1 t.2.2) (hpositive : 0 < waitMs t) :
    parseResetDurationMs dateParse now (before ++ (text ++ cont)) = some (.fin ((waitMs t : ℕ) : ℚ)) := by
  have hread : (compactMs (before ++ (text ++ cont))).or ((wordMs (before ++ (text ++ cont))).or
      (isoMs dateParse now (before ++ (text ++ cont)))) = some (.fin ((waitMs t : ℕ) : ℚ)) := by
    cases h with
    | @compact h m s gap gap' hgap hgap' =>
      have htotal := compactTotal_form e hgap hgap' hends
      have hcompact := compactMs_header hbefore (show (js "Reset").map upperUnit = js "RESET" by decide)
        (htotal ▸ isPositive_natCast hpositive)
      rw [List.append_assoc]
      exact (congrArg (Option.or · _) hcompact).trans (congrArg some htotal)
    | @resetsIn w n unit plural hw =>
      have htotal : compactTotal ((verboseForm n unit plural ++ cont).dropWhile isWhiteSpace) = _ :=
        compactTotal_verbose e
      rw [← waitMs_split] at htotal
      have hpositive' : (compactTotal ((verboseForm n unit plural ++ cont).dropWhile isWhiteSpace)).isPositive = true :=
        htotal ▸ isPositive_natCast hpositive
      rw [List.append_assoc]
      rcases hw with rfl | rfl
      · have hcompact := compactMs_header hbefore (show (js "Reset").map upperUnit = js "RESET" by decide) hpositive'
        exact (congrArg (Option.or · _) hcompact).trans (congrArg some htotal)
      · have hcompact := compactMs_header hbefore reset_upper hpositive'
        exact (congrArg (Option.or · _) hcompact).trans (congrArg some htotal)
    | @retryAfter w n unit plural hw hcont =>
      rw [compactMs_retry hbefore hw hends, hcont, Option.none_or, wordMs_retry hbefore hw hends e, Option.some_or,
        waitMs_split]
  have hne : (before ++ (text ++ cont)).isEmpty = false := List.isEmpty_eq_false_iff.mpr h.message_ne_nil
  unfold parseResetDurationMs
  rw [hne, if_neg Bool.false_ne_true, hread]

/-- The end of the cooldown, whether the message is the failure's reason or the reset time itself. -/
theorem cooldownEnd_eq (dateParse : JsString → Option ℤ) (now : ℕ) (h : Announces cont t text)
    (hbefore : NoReset before) (hends : Ends cont) (e : ExactSum t.1 t.2.1 t.2.2) (hpositive : 0 < waitMs t)
    (s : AccountPoolData) (failures : ℕ) {reason : JsString} {serverResetTime : Option JsString}
    (hmessage : serverResetTime = none ∧ reason = before ++ (text ++ cont) ∨
      serverResetTime = some (before ++ (text ++ cont))) :
    s.cooldownEnd dateParse failures reason serverResetTime now = ((now + waitMs t + 10000 : ℕ) : ℕ∞) := by
  have hread := parseResetDurationMs_eq dateParse now h hbefore hends e hpositive
  have hgiven : (truthy? serverResetTime).getD reason = before ++ (text ++ cont) := by
    rcases hmessage with ⟨rfl, rfl⟩ | rfl
    · rfl
    · unfold truthy?
      rw [Option.filter_some, List.isEmpty_eq_false_iff.mpr h.message_ne_nil]
      rfl
  have hfloor : (((waitMs t : ℕ) : ℚ)).floor.toNat = waitMs t := by
    have h : ((waitMs t : ℕ) : ℚ).floor = ((waitMs t : ℕ) : ℤ) := by exact_mod_cast Rat.floor_intCast (waitMs t)
    rw [h, Int.toNat_natCast]
  unfold AccountPoolData.cooldownEnd
  dsimp only
  rw [hgiven, hread, Option.filter_some, isPositive_natCast hpositive, if_pos rfl]
  show (now : ℕ∞) + ((((waitMs t : ℕ) : ℚ)).floor.toNat : ℕ) + 10000 = _
  rw [hfloor]
  norm_cast

/-- **Quota reset parsing inverts the announcement**: the wait read is the wait announced, and `recordFailure` cools
the account down for it and the buffer. -/
theorem parseResetDurationMs_announced (dateParse : JsString → Option ℤ) (now : ℕ) (h : Announces cont t text)
    (hbefore : NoReset before) (hends : Ends cont) (e : ExactSum t.1 t.2.1 t.2.2) (hpositive : 0 < waitMs t) :
    parseResetDurationMs dateParse now (before ++ (text ++ cont)) = some (.fin ((waitMs t : ℕ) : ℚ)) ∧
      ∀ (s : AccountPoolData) (id : JsString) (family : ModelFamily) (account : PoolAccount) (reason : JsString)
        (serverResetTime : Option JsString), s.getAccount id = some account → now + waitMs t + 10000 ≤ 2 ^ 53 →
        serverResetTime = none ∧ reason = before ++ (text ++ cont) ∨
            serverResetTime = some (before ++ (text ++ cont)) →
          ∃ account', (s.recordFailure dateParse id family reason serverResetTime now).getAccount id = some account' ∧
            (account'.cooldowns family).map FamilyCooldownState.cooldownUntil =
              some ((now + waitMs t + 10000 : ℕ) : ℕ∞) := by
  refine ⟨parseResetDurationMs_eq dateParse now h hbefore hends e hpositive, ?_⟩
  intro s id family account reason serverResetTime haccount _ hmessage
  have hfind : ∀ f : PoolAccount → PoolAccount, (s.edit id f).getAccount id = some (account.change f) := by
    intro f
    unfold AccountPoolData.getAccount at haccount ⊢
    have hfound := List.find?_some haccount
    have hkey : account.key = id := of_decide_eq_true hfound
    show (updateAt PoolAccount.key id (PoolAccount.change f) s.accounts).find? _ = _
    rw [find?_updateAt (PoolAccount.key_change f), haccount, Option.map_some, if_pos hkey]
  refine ⟨_, hfind _, ?_⟩
  show (Function.update account.cooldowns family _ family).map FamilyCooldownState.cooldownUntil = _
  rw [Function.update_self, Option.map_some, cooldownEnd_eq dateParse now h hbefore hends e hpositive s _ hmessage]

theorem exact_of_lt {n : ℕ} (h : n < 2 ^ 53) : Exact n := roundToDouble_natCast h

/-- A wait of less than `2 ^ 53` milliseconds is computed in doubles throughout. -/
theorem exactSum_of_lt {h m s : ℕ} (hlt : waitMs (h, m, s) < 2 ^ 53) : ExactSum h m s := by
  have hsum : h * 3600 + m * 60 + s < 2 ^ 53 := (Nat.le_mul_of_pos_right _ (by norm_num)).trans_lt hlt
  have hpart : ∀ n ≤ h * 3600 + m * 60 + s, Exact n := fun n hn => exact_of_lt (hn.trans_lt hsum)
  refine ⟨hpart _ ?_, hpart _ ?_, hpart _ ?_, hpart _ ?_, hpart _ ?_, hpart _ ?_, hpart _ le_rfl, exact_of_lt hlt⟩
  all_goals omega

theorem parseResetDurationMs_announced_compact :
    parseResetDurationMs (fun _ => none) 0 (js "Quota hit. " ++ (js "Resets in 21m25s" ++ js ", sorry.")) =
      some (.fin ((waitMs (0, 21, 25) : ℕ) : ℚ)) := by
  have htext : js "Resets in 21m25s" = js "Resets in " ++ compactForm 0 21 25 [] [] := by decide
  have hcompact : Announces (js ", sorry.") (0, 21, 25) (js "Resets in " ++ compactForm 0 21 25 [] []) :=
    .compact (fun c hc => absurd hc List.not_mem_nil) fun c hc => absurd hc List.not_mem_nil
  have hbefore : NoReset (js "Quota hit. ") := ⟨by decide, by decide⟩
  have hends : Ends (js ", sorry.") := fun c hc => Option.some.inj hc ▸ ⟨rfl, rfl⟩
  rw [htext]
  exact (parseResetDurationMs_announced (fun _ => none) 0 hcompact hbefore hends (exactSum_of_lt (by decide))
    (by decide)).1

end Announced

instance (n : ℕ) : Decidable (Exact n) := inferInstanceAs (Decidable (_ = _))

/-- A compact announcement behind `retry after`, one in capitals in front of the announcement, and a total that a
double holds while two sums on the way round up: each time another wait is read than the one announced. -/
theorem reset_misread :
    parseResetDurationMs (fun _ => none) 0 (js "retry after 30 seconds" ++ js ". Resets in 5m") =
        some (.fin ((5 * 60 * 1000 : ℕ) : ℚ)) ∧
      parseResetDurationMs (fun _ => none) 0 (js "RESETS IN 5m. " ++ js "Resets in 10m") =
        some (.fin ((5 * 60 * 1000 : ℕ) : ℚ)) ∧
      Exact (waitMs (40031996687739, 4, 3424)) ∧
      parseResetDurationMs (fun _ => none) 0 (js "Resets in " ++ compactForm 40031996687739 4 3424 [] []) =
        some (.fin ((waitMs (40031996687739, 4, 3424) + 32768 : ℕ) : ℚ)) := by
  decide +kernel

end AgyProxy

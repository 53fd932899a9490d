import AgyProxy.Js.NumberSpec

/-!
# AgyProxy.Js.Date — time values and their text (`Date.parse`, `toISOString`)

A time value is a whole number of milliseconds since 1970, at most `MAX_TIME` away from it.

* `dayFromYear`, `yearFromDay`, `monthOf`: the calendar of the language specification.
* `toISOString` and `isoTime?`: the date-time format in UTC, with years of four or six digits; `parseDate` leaves
  every other text to a parameter.
* `isoTime?_toISOString`: **a time value reads back**.
-/

namespace AgyProxy.Js

/-! ### The calendar -/

def MS_PER_DAY : ℤ := 86400000

/-- 100,000,000 days. -/
def MAX_TIME : ℤ := 8640000000000000

/-- `DayFromYear`: the number of the first day of a year. -/
def dayFromYear (y : ℤ) : ℤ := 365 * (y - 1970) + (y - 1969) / 4 - (y - 1901) / 100 + (y - 1601) / 400

/-- `YearFromTime`: the year of a day, from the mean length of a year. -/
def yearFromDay (d : ℤ) : ℤ :=
  let y := 1970 + 400 * d / 146097
  if d < dayFromYear y then y - 1 else if dayFromYear (y + 1) ≤ d then y + 1 else y

def isLeapYear (y : ℤ) : Bool := decide (dayFromYear (y + 1) - dayFromYear y = 366)

/-- The day of the year that a month starts on, the months counted from 0. -/
def monthStart (leap : Bool) (m : ℕ) : ℕ :=
  [0, 31, 59, 90, 120, 151, 181, 212, 243, 273, 304, 334, 365].getD m 365 + if leap && 2 ≤ m then 1 else 0

/-- `MonthFromTime`, from the day of the year. -/
def monthOf (leap : Bool) (k : ℕ) : ℕ := ((List.range 12).filter fun m => monthStart leap m ≤ k).length - 1

structure DateFields where
  year : ℤ
  month : ℕ
  day : ℕ
  hour : ℕ
  minute : ℕ
  second : ℕ
  ms : ℕ
deriving DecidableEq

namespace DateFields

/-- The fields of a time value. -/
def ofTime (t : ℤ) : DateFields :=
  let d := t / MS_PER_DAY
  let r := (t % MS_PER_DAY).toNat
  let y := yearFromDay d
  let k := (d - dayFromYear y).toNat
  let m := monthOf (isLeapYear y) k
  ⟨y, m + 1, k - monthStart (isLeapYear y) m + 1, r / 3600000, r / 60000 % 60, r / 1000 % 60, r % 1000⟩

/-- `MakeTime` and `MakeDay`. -/
def time (f : DateFields) : ℤ :=
  (dayFromYear f.year + monthStart (isLeapYear f.year) (f.month - 1) + (f.day - 1)) * MS_PER_DAY +
    (f.hour * 3600000 + f.minute * 60000 + f.second * 1000 + f.ms)

def Valid (f : DateFields) : Prop :=
  (1 ≤ f.month ∧ f.month ≤ 12) ∧
    (1 ≤ f.day ∧ monthStart (isLeapYear f.year) (f.month - 1) + f.day ≤ monthStart (isLeapYear f.year) f.month) ∧
      f.hour ≤ 23 ∧ f.minute ≤ 59 ∧ f.second ≤ 59 ∧ f.ms ≤ 999

instance (f : DateFields) : Decidable f.Valid := inferInstanceAs (Decidable (_ ∧ _))

end DateFields

/-! ### Writing -/

/-- A number with leading zeros up to a width. -/
def padDigits (width n : ℕ) : JsString := List.replicate (width - (natDigits n).length) 0x30 ++ natDigits n

def yearText (y : ℤ) : JsString :=
  if 0 ≤ y ∧ y ≤ 9999 then padDigits 4 y.natAbs
  else (if y < 0 then js "-" else js "+") ++ padDigits 6 y.natAbs

def DateFields.text (f : DateFields) : JsString :=
  yearText f.year ++ (js "-" ++ (padDigits 2 f.month ++ (js "-" ++ (padDigits 2 f.day ++ (js "T" ++
    (padDigits 2 f.hour ++ (js ":" ++ (padDigits 2 f.minute ++ (js ":" ++ (padDigits 2 f.second ++ (js "." ++
      (padDigits 3 f.ms ++ js "Z"))))))))))))

/-- `TimeClip`, with `none` for NaN. -/
def timeClip : Num → Option ℤ
  | .fin q => if |q| ≤ MAX_TIME then some (if 0 ≤ q then ⌊q⌋ else ⌈q⌉) else none
  | _ => none

/-- `new Date(t).toISOString()`, which throws on an invalid time value. -/
def toISOString (t : ℤ) : Option JsString := if |t| ≤ MAX_TIME then some (DateFields.ofTime t).text else none

/-! ### Reading -/

def takeDigits (width : ℕ) (s : JsString) : Option (ℕ × JsString) :=
  if (s.take width).length = width ∧ (s.take width).all isDigit then
    (digitsValue 10 0 (s.take width)).map fun n => (n, s.drop width)
  else none

def expect (c : UInt16) : JsString → Option JsString
  | [] => none
  | u :: s => if u = c then some s else none

/-- Four digits, or a sign and six; year 0 has no sign. -/
def takeYear : JsString → Option (ℤ × JsString)
  | [] => none
  | u :: s =>
    if u = 0x2B then (takeDigits 6 s).map fun p => ((p.1 : ℤ), p.2)
    else if u = 0x2D then (takeDigits 6 s).bind fun p => if p.1 = 0 then none else some (-(p.1 : ℤ), p.2)
    else (takeDigits 4 (u :: s)).map fun p => ((p.1 : ℤ), p.2)

/-- `YYYY-MM-DDTHH:mm:ss.sssZ`. -/
def takeFields (s : JsString) : Option DateFields := do
  let (year, s) ← takeYear s
  let s ← expect 0x2D s
  let (month, s) ← takeDigits 2 s
  let s ← expect 0x2D s
  let (day, s) ← takeDigits 2 s
  let s ← expect 0x54 s
  let (hour, s) ← takeDigits 2 s
  let s ← expect 0x3A s
  let (minute, s) ← takeDigits 2 s
  let s ← expect 0x3A s
  let (second, s) ← takeDigits 2 s
  let s ← expect 0x2E s
  let (ms, s) ← takeDigits 3 s
  let s ← expect 0x5A s
  if s = [] then some ⟨year, month, day, hour, minute, second, ms⟩ else none

def isoTime? (s : JsString) : Option ℤ :=
  (takeFields s).bind fun f => if f.Valid ∧ |f.time| ≤ MAX_TIME then some f.time else none

/-- `Date.parse`; `other` is what it makes of the texts in another format. -/
def parseDate (other : JsString → Option ℤ) (s : JsString) : Option ℤ := (isoTime? s).or (other s)

example : toISOString 1735689599999 = some (js "2024-12-31T23:59:59.999Z") ∧
    isoTime? (js "+010000-01-01T00:00:00.000Z") = some 253402300800000 := by decide +kernel

/-! ### The fields of a time value -/

theorem dayFromYear_succ (y : ℤ) :
    dayFromYear y + 365 ≤ dayFromYear (y + 1) ∧ dayFromYear (y + 1) ≤ dayFromYear y + 366 := by
  unfold dayFromYear
  omega

/-- A day lies in its year. -/
theorem yearFromDay_spec (d : ℤ) : dayFromYear (yearFromDay d) ≤ d ∧ d < dayFromYear (yearFromDay d + 1) := by
  -- the mean length leads to the year, the one before or the one behind
  have hlow : dayFromYear (1970 + 400 * d / 146097 - 1) ≤ d := by
    unfold dayFromYear
    omega
  have hhigh : d < dayFromYear (1970 + 400 * d / 146097 + 1 + 1) := by
    unfold dayFromYear
    omega
  unfold yearFromDay
  dsimp only
  split_ifs with hbefore hbehind
  · rw [sub_add_cancel]
    exact ⟨hlow, hbefore⟩
  · exact ⟨hbehind, hhigh⟩
  · exact ⟨not_lt.mp hbefore, not_le.mp hbehind⟩

theorem yearFromDay_bound {d : ℤ} (h : |d| ≤ 100000000) : |yearFromDay d| ≤ 999999 := by
  obtain ⟨hlow, hhigh⟩ := yearFromDay_spec d
  rw [abs_le] at h ⊢
  generalize yearFromDay d = y at hlow hhigh
  unfold dayFromYear at hlow hhigh
  omega

/-- Every day of a year lies in its month. -/
theorem monthOf_spec : ∀ leap : Bool, ∀ k < monthStart leap 12,
    monthOf leap k < 12 ∧ monthStart leap (monthOf leap k) ≤ k ∧ k < monthStart leap (monthOf leap k + 1) := by
  decide +kernel

/-- No month is longer than 31 days. -/
theorem monthStart_succ : ∀ leap : Bool, ∀ m < 12, monthStart leap (m + 1) ≤ monthStart leap m + 31 := by decide

/-- The day of the year of a time value. -/
theorem dayOfYear_lt (d : ℤ) :
    (d - dayFromYear (yearFromDay d)).toNat < monthStart (isLeapYear (yearFromDay d)) 12 := by
  obtain ⟨hlow, hhigh⟩ := yearFromDay_spec d
  obtain ⟨hshort, hlong⟩ := dayFromYear_succ (yearFromDay d)
  unfold isLeapYear
  by_cases hleap : dayFromYear (yearFromDay d + 1) - dayFromYear (yearFromDay d) = 366
  · rw [decide_eq_true hleap]
    show _ < 366
    omega
  · rw [decide_eq_false hleap]
    show _ < 365
    omega

theorem ofTime_spec (t : ℤ) : (DateFields.ofTime t).Valid ∧ (DateFields.ofTime t).time = t := by
  obtain ⟨hlow, hhigh⟩ := yearFromDay_spec (t / MS_PER_DAY)
  have hday := dayOfYear_lt (t / MS_PER_DAY)
  obtain ⟨hmonth, hstart, hend⟩ := monthOf_spec _ _ hday
  have hpositive : (0 : ℤ) ≤ t % MS_PER_DAY := Int.emod_nonneg t (by decide)
  have hless : t % MS_PER_DAY < MS_PER_DAY := Int.emod_lt_of_pos t (by decide)
  have hsplit := Int.mul_ediv_add_emod t MS_PER_DAY
  unfold DateFields.ofTime DateFields.Valid DateFields.time
  dsimp only
  rw [Nat.add_sub_cancel]
  generalize monthOf _ _ = m at hmonth hstart hend ⊢
  generalize hleap : isLeapYear (yearFromDay (t / MS_PER_DAY)) = leap at *
  generalize monthStart leap m = first at hstart hend ⊢
  generalize monthStart leap (m + 1) = next at hend ⊢
  unfold MS_PER_DAY at *
  generalize dayFromYear (yearFromDay (t / 86400000)) = newYear at *
  constructor
  · omega
  · omega

/-! ### Reading back -/

theorem length_natDigits {n width : ℕ} (h : n < 10 ^ width) (hwidth : 0 < width) : (natDigits n).length ≤ width := by
  unfold natDigits
  rw [List.length_map]
  exact (Nat.length_toDigits_le_iff (by decide) hwidth).mpr h

theorem length_padDigits {n width : ℕ} (h : n < 10 ^ width) (hwidth : 0 < width) :
    (padDigits width n).length = width := by
  have hlength := length_natDigits h hwidth
  unfold padDigits
  rw [List.length_append, List.length_replicate]
  omega

theorem allDigits_padDigits (width n : ℕ) : AllDigits (padDigits width n) := by
  refine List.forall_mem_append.mpr ⟨fun c hc => ?_, allDigits_natDigits n⟩
  rw [List.eq_of_mem_replicate hc]
  decide

theorem digitsValue_zeros (k : ℕ) (s : JsString) :
    digitsValue 10 0 (List.replicate k 0x30 ++ s) = digitsValue 10 0 s := by
  induction k with
  | zero => rfl
  | succ k ih =>
    rw [List.replicate_succ, List.cons_append]
    exact ih

theorem takeDigits_padDigits {n width : ℕ} (h : n < 10 ^ width) (hwidth : 0 < width) (rest : JsString) :
    takeDigits width (padDigits width n ++ rest) = some (n, rest) := by
  have hlength := length_padDigits h hwidth
  have htake : (padDigits width n ++ rest).take width = padDigits width n := by
    rw [List.take_append_of_le_length hlength.ge, List.take_of_length_le hlength.le]
  have hdrop : (padDigits width n ++ rest).drop width = rest := by
    rw [List.drop_append_of_le_length hlength.ge, List.drop_of_length_le hlength.le, List.nil_append]
  unfold takeDigits
  rw [htake, hdrop, if_pos ⟨hlength, List.all_eq_true.mpr (allDigits_padDigits width n)⟩]
  unfold padDigits
  rw [digitsValue_zeros, digitsValue_natDigits, Option.map_some]

theorem takeYear_yearText {y : ℤ} (h : |y| ≤ 999999) (rest : JsString) :
    takeYear (yearText y ++ rest) = some (y, rest) := by
  have hbound := abs_le.mp h
  have hdigits : y.natAbs < 10 ^ 6 := by omega
  unfold yearText
  by_cases hplain : 0 ≤ y ∧ y ≤ 9999
  · have hfour : y.natAbs < 10 ^ 4 := by omega
    have hvalue : ((y.natAbs : ℕ) : ℤ) = y := Int.natAbs_of_nonneg hplain.1
    rw [if_pos hplain]
    obtain ⟨u, s, htext⟩ : ∃ u s, padDigits 4 y.natAbs = u :: s := List.exists_cons_of_ne_nil fun hnil => by
      have hlength := length_padDigits hfour (by decide)
      rw [hnil] at hlength
      cases hlength
    have hu : isDigit u = true := allDigits_padDigits 4 y.natAbs u (htext ▸ List.mem_cons_self)
    have hread := takeDigits_padDigits hfour (by decide) rest
    rw [htext, List.cons_append] at hread ⊢
    rw [takeYear, if_neg (digit_ne hu (by decide)), if_neg (digit_ne hu (by decide)), hread, Option.map_some, hvalue]
  · rw [if_neg hplain]
    have hread := takeDigits_padDigits hdigits (by decide) rest
    by_cases hneg : y < 0
    · have hvalue : -((y.natAbs : ℕ) : ℤ) = y := by omega
      have hne : ¬y.natAbs = 0 := by omega
      rw [if_pos hneg]
      show (takeDigits 6 (padDigits 6 y.natAbs ++ rest)).bind _ = _
      rw [hread, Option.bind_some, if_neg hne, hvalue]
    · have hvalue : ((y.natAbs : ℕ) : ℤ) = y := by omega
      rw [if_neg hneg]
      show (takeDigits 6 (padDigits 6 y.natAbs ++ rest)).map _ = _
      rw [hread, Option.map_some, hvalue]

/-- The fields read back from their text. -/
theorem takeFields_text {f : DateFields} (hyear : |f.year| ≤ 999999) (hvalid : f.Valid) (hday : f.day ≤ 31) :
    takeFields f.text = some f := by
  obtain ⟨⟨-, hmonth⟩, -, hhour, hminute, hsecond, hms⟩ := hvalid
  have htwo : ∀ {n : ℕ}, n ≤ 59 → ∀ rest, takeDigits 2 (padDigits 2 n ++ rest) = some (n, rest) := fun hn rest =>
    takeDigits_padDigits (by omega) (by decide) rest
  have hthree : ∀ rest, takeDigits 3 (padDigits 3 f.ms ++ rest) = some (f.ms, rest) := fun rest =>
    takeDigits_padDigits (by omega) (by decide) rest
  have hminus : ∀ rest, expect 0x2D (js "-" ++ rest) = some rest := fun _ => rfl
  have hcolon : ∀ rest, expect 0x3A (js ":" ++ rest) = some rest := fun _ => rfl
  have htime : ∀ rest, expect 0x54 (js "T" ++ rest) = some rest := fun _ => rfl
  have hdot : ∀ rest, expect 0x2E (js "." ++ rest) = some rest := fun _ => rfl
  have hzone : expect 0x5A (js "Z") = some [] := rfl
  unfold takeFields
  dsimp only [Option.bind_eq_bind]
  unfold DateFields.text
  rw [takeYear_yearText hyear, Option.bind_some, hminus, Option.bind_some]
  rw [htwo (hmonth.trans (by decide)), Option.bind_some, hminus, Option.bind_some]
  rw [htwo (hday.trans (by decide)), Option.bind_some, htime, Option.bind_some]
  rw [htwo (hhour.trans (by decide)), Option.bind_some, hcolon, Option.bind_some]
  rw [htwo hminute, Option.bind_some, hcolon, Option.bind_some]
  rw [htwo hsecond, Option.bind_some, hdot, Option.bind_some]
  rw [hthree, Option.bind_some, hzone, Option.bind_some, if_pos rfl]

@[simp] theorem ofTime_year (t : ℤ) : (DateFields.ofTime t).year = yearFromDay (t / MS_PER_DAY) := rfl

theorem ofTime_year_bound {t : ℤ} (h : |t| ≤ MAX_TIME) : |(DateFields.ofTime t).year| ≤ 999999 := by
  have hdays : |t / MS_PER_DAY| ≤ 100000000 := by
    unfold MAX_TIME at h
    unfold MS_PER_DAY
    rw [abs_le] at h ⊢
    omega
  rw [ofTime_year]
  exact yearFromDay_bound hdays

theorem DateFields.Valid.day_le {f : DateFields} (h : f.Valid) : f.day ≤ 31 := by
  obtain ⟨⟨hfirst, hlast⟩, ⟨-, hend⟩, -⟩ := h
  have hmonth := monthStart_succ (isLeapYear f.year) (f.month - 1) (by omega)
  rw [Nat.sub_add_cancel hfirst] at hmonth
  omega

/-- **A time value reads back** from what `toISOString` gives. -/
theorem isoTime?_toISOString {t : ℤ} {s : JsString} (h : toISOString t = some s) : isoTime? s = some t := by
  unfold toISOString at h
  split_ifs at h with hrange
  obtain rfl := Option.some.inj h
  obtain ⟨hvalid, htime⟩ := ofTime_spec t
  have hread := takeFields_text (ofTime_year_bound hrange) hvalid hvalid.day_le
  generalize DateFields.ofTime t = f at hvalid htime hread
  unfold isoTime?
  rw [hread, Option.bind_some, htime, if_pos ⟨hvalid, hrange⟩]

theorem toISOString_isSome {t : ℤ} (h : |t| ≤ MAX_TIME) : ∃ s, toISOString t = some s := ⟨_, if_pos h⟩

theorem timeClip_intCast {t : ℤ} (h : |t| ≤ MAX_TIME) : timeClip (.fin t) = some t := by
  have hcast : |(t : ℚ)| ≤ MAX_TIME := by exact_mod_cast h
  rw [timeClip, if_pos hcast, Int.floor_intCast, Int.ceil_intCast, ite_self]

theorem parseDate_toISOString {other : JsString → Option ℤ} {t : ℤ} {s : JsString} (h : toISOString t = some s) :
    parseDate other s = some t := by
  unfold parseDate
  rw [isoTime?_toISOString h, Option.some_or]

end AgyProxy.Js

import AgyProxy.Js.Number

/-!
# AgyProxy.Js.NumberSpec — `Number(String(n))` for natural numbers

The decimal digits of a natural number read back as it, through the digit loop, the rounding to a double
and `Number`: `stringToNumber_natDigits` for every safe integer.  What a number is printed with:
`numberToString_units`.
-/

namespace AgyProxy.Js

/-- All code units are ASCII digits. -/
def AllDigits (s : JsString) : Prop := ∀ c ∈ s, isDigit c = true

theorem natDigits_ne_nil (n : ℕ) : natDigits n ≠ [] := by
  unfold natDigits
  exact fun h => Nat.toDigits_ne_nil (List.map_eq_nil_iff.mp h)

theorem digitUnit (c : Char) (h : c.isDigit) :
    isDigit (UInt16.ofNat c.toNat) = true ∧ (UInt16.ofNat c.toNat).toNat - 0x30 = c.toNat - 0x30 := by
  have hc : 48 ≤ c.toNat ∧ c.toNat ≤ 57 := by
    simp only [Char.isDigit, Bool.and_eq_true, decide_eq_true_eq] at h
    exact ⟨h.1, h.2⟩
  have hn : (UInt16.ofNat c.toNat).toNat = c.toNat := 
    UInt16.toNat_ofNat_of_lt (lt_of_le_of_lt hc.2 (by decide))
  refine ⟨?_, by rw [hn]⟩
  unfold isDigit
  rw [Bool.and_eq_true, decide_eq_true_eq, decide_eq_true_eq, UInt16.le_iff_toNat_le, UInt16.le_iff_toNat_le, hn]
  exact hc

theorem allDigits_natDigits (n : ℕ) : AllDigits (natDigits n) := by
  intro u hu
  obtain ⟨c, hc, rfl⟩ := List.mem_map.mp hu
  exact (digitUnit c (Nat.isDigit_of_mem_toDigits (by omega) (by omega) hc)).1

/-- The digits of a natural number read back as it. -/
theorem digitsValue_natDigits (n : ℕ) : digitsValue 10 0 (natDigits n) = some n := by
  have h : ∀ (cs : List Char) (acc : ℕ), (∀ c ∈ cs, c.isDigit) →
      digitsValue 10 acc (cs.map fun c => UInt16.ofNat c.toNat) = some (Nat.ofDigitChars 10 cs acc) := by
    intro cs
    induction cs with
    | nil => exact fun acc _ => rfl
    | cons c cs ih =>
      intro acc hcs
      obtain ⟨h1, h2⟩ := digitUnit c (hcs c List.mem_cons_self)
      have hlt : c.toNat - 0x30 < 10 := by
        have := hcs c List.mem_cons_self
        simp only [Char.isDigit, Bool.and_eq_true, decide_eq_true_eq] at this
        have h57 : c.toNat ≤ 57 := this.2
        omega
      rw [List.map_cons, digitsValue, if_pos h1, h2, if_pos hlt, ih _ fun c' hc' => hcs c' (List.mem_cons_of_mem _ hc'),
        Nat.ofDigitChars_cons, Nat.mul_comm]
      rfl
  rw [natDigits, h _ _ fun c hc => Nat.isDigit_of_mem_toDigits (by omega) (by omega) hc, Nat.ofDigitChars_ten_toDigits]


theorem isDigit_toNat {c : UInt16} (h : isDigit c = true) : 0x30 ≤ c.toNat ∧ c.toNat ≤ 0x39 := by
  unfold isDigit at h
  rw [Bool.and_eq_true, decide_eq_true_eq, decide_eq_true_eq, UInt16.le_iff_toNat_le, UInt16.le_iff_toNat_le] at h
  exact h

/-- A digit is no code unit outside `0`–`9`. -/
theorem digit_ne {c d : UInt16} (h : isDigit c = true) (hd : isDigit d = false) : c ≠ d := by
  rintro rfl
  rw [h] at hd
  cases hd

theorem digit_not_space {c : UInt16} (h : isDigit c = true) : isWhiteSpace c = false := by
  obtain ⟨h1, h2⟩ := isDigit_toNat h
  unfold isWhiteSpace
  simp only [Bool.or_eq_false_iff, Bool.and_eq_false_iff, decide_eq_false_iff_not, beq_eq_false_iff_ne, ne_eq,
    ← UInt16.toNat_inj, UInt16.le_iff_toNat_le, UInt16.reduceToNat]
  omega

theorem trim_digits {s : JsString} (h : AllDigits s) : trim s = s := by
  have hdrop : s.dropWhile isWhiteSpace = s := by
    cases s with
    | nil => rfl
    | cons c s =>
      have hspace : ¬isWhiteSpace c = true := by rw [digit_not_space (h c List.mem_cons_self)]; exact Bool.false_ne_true
      rw [List.dropWhile_cons_of_neg hspace]
  rw [trim, hdrop, List.rdropWhile_eq_self_iff]
  intro hne
  rw [digit_not_space (h _ (List.getLast_mem hne))]
  exact Bool.false_ne_true

theorem takeWhile_digits {s : JsString} {p : UInt16 → Bool} (h : AllDigits s)
    (hp : ∀ c, isDigit c = true → p c = true) : s.takeWhile p = s :=
  List.takeWhile_eq_self_iff.mpr fun c hc => hp c (h c hc)

/-- A digit string is no `0x`, `0o` or `0b` literal. -/
theorem radixLiteral_digits {s : JsString} (h : AllDigits s) : radixLiteral s = none := by
  unfold radixLiteral
  split
  · rename_i c d s
    have hc : isDigit c = true := h c (by simp)
    obtain ⟨h1, h2⟩ := isDigit_toNat hc
    have hl : lowerUnit c = c := by
      unfold lowerUnit
      rw [if_neg, if_neg]
      · simp only [beq_iff_eq]
        exact digit_ne hc (by decide)
      · simp only [Bool.and_eq_true, decide_eq_true_eq, UInt16.le_iff_toNat_le, UInt16.reduceToNat]
        omega
    have hr : radixOf c = 0 := by
      unfold radixOf
      rw [hl, if_neg (digit_ne hc (by decide)), if_neg (digit_ne hc (by decide)), if_neg (digit_ne hc (by decide))]
    rw [hr, digitsValue, if_neg (by omega)]
    rfl
  · rfl

/-- An integer is its own nearest integer. -/
theorem roundHalfEven_natCast (n : ℕ) : roundHalfEven (n : ℚ) = n := by
  have hfloor : (n : ℚ).floor = (n : ℤ) := by exact_mod_cast Rat.floor_intCast n
  unfold roundHalfEven
  simp [hfloor]

theorem doubleExp_natCast {n : ℕ} (hpos : 0 < n) : doubleExp (n : ℚ) = (Nat.log2 n : ℤ) - 52 := by
  have hlow : ¬((n : ℚ) < (2 : ℚ) ^ (Nat.log2 n : ℤ)) := by
    rw [zpow_natCast, not_lt]
    exact_mod_cast Nat.log2_self_le hpos.ne'
  unfold doubleExp
  simp only [Rat.num_natCast, Rat.den_natCast, Int.toNat_natCast, show Nat.log2 1 = 0 from rfl, Nat.cast_zero,
    sub_zero, hlow, if_false]
  omega

theorem roundToDouble_natCast {n : ℕ} (h : n < 2 ^ 53) : roundToDouble (n : ℚ) = .fin n := by
  rcases Nat.eq_zero_or_pos n with rfl | hpos
  · rfl
  have hq : (n : ℚ) ≠ 0 := by exact_mod_cast hpos.ne'
  have hlog : Nat.log2 n ≤ 52 := by
    have := (Nat.log2_lt hpos.ne').mpr h
    omega
  have hscale : (n : ℚ) / (2 : ℚ) ^ ((Nat.log2 n : ℤ) - 52) = ((n * 2 ^ (52 - Nat.log2 n) : ℕ) : ℚ) := by
    rw [div_eq_mul_inv, ← zpow_neg, neg_sub]
    push_cast
    rw [show (52 : ℤ) - (Nat.log2 n : ℤ) = ((52 - Nat.log2 n : ℕ) : ℤ) by omega, zpow_natCast]
  have hback : (((n * 2 ^ (52 - Nat.log2 n) : ℕ) : ℚ)) * (2 : ℚ) ^ ((Nat.log2 n : ℤ) - 52) = n := by
    rw [← hscale]
    exact div_mul_cancel₀ _ (zpow_ne_zero _ (by norm_num))
  have hlt : ¬((2 : ℚ) ^ (1024 : ℤ) ≤ (n : ℚ)) := by
    rw [not_le]
    calc (n : ℚ) < (2 : ℚ) ^ (53 : ℕ) := by exact_mod_cast h
      _ ≤ (2 : ℚ) ^ (1024 : ℕ) := pow_le_pow_right₀ (by norm_num) (by norm_num)
      _ = (2 : ℚ) ^ (1024 : ℤ) := by rw [← zpow_natCast]; rfl
  have hneg : ¬((n : ℚ) < 0) := not_lt.mpr (Nat.cast_nonneg n)
  unfold roundToDouble
  rw [if_neg hq]
  simp only [Nat.abs_cast, doubleExp_natCast hpos, hscale, roundHalfEven_natCast, hback, if_neg hlt, if_neg hneg]

theorem splitExponent_digits {s : JsString} (h : AllDigits s) : splitExponent s = some (s, 0) := by
  have ht : s.takeWhile (fun c => c != 0x65 && c != 0x45) = s := takeWhile_digits h fun c hc => by
    rw [Bool.and_eq_true, bne_iff_ne, bne_iff_ne]
    exact ⟨digit_ne hc (by decide), digit_ne hc (by decide)⟩
  simp only [splitExponent, ht, List.drop_length]

theorem decimalToNum_natCast {n : ℕ} (h : n < 2 ^ 53) : decimalToNum false n 0 = .fin n := by
  have hlog : Nat.log 10 n < 53 := by
    rcases Nat.eq_zero_or_pos n with rfl | hpos
    · simp
    · refine Nat.log_lt_of_lt_pow hpos.ne' (lt_of_lt_of_le h ?_)
      exact Nat.pow_le_pow_left (by norm_num) 53
  unfold decimalToNum
  by_cases hz : n = 0
  · subst hz
    rfl
  · simp only [if_neg hz]
    rw [if_neg (by omega), if_neg (by omega)]
    simpa using roundToDouble_natCast h

/-- `Number` of a digit string, leading zeros and all. -/
theorem stringToNumber_digits {s : JsString} {n : ℕ} (hall : AllDigits s) (hne : s ≠ [])
    (hn : digitsValue 10 0 s = some n) : stringToNumber s = decimalToNum false n 0 := by
  have hhead : ∀ u : UInt16, isDigit u = false → (s.head? == some u) = false := by
    intro u hu
    rw [beq_eq_false_iff_ne]
    intro hh
    have hm : u ∈ s := List.mem_of_mem_head? hh
    rw [hall u hm] at hu
    cases hu
  have hinf : s ≠ js "Infinity" := by
    intro hi
    have : isDigit 0x49 = true := hall 0x49 (by rw [hi]; decide)
    cases this
  have hip : s.takeWhile (· != 0x2E) = s := takeWhile_digits hall fun c hc => by
    rw [bne_iff_ne]
    exact digit_ne hc (by decide)
  have hdec : decimalLiteral false s = some (decimalToNum false n 0) := by
    unfold decimalLiteral
    rw [splitExponent_digits hall]
    simp only [bind, Option.bind, hip, List.drop_length, List.drop_nil, List.append_nil, List.isEmpty_nil,
      Bool.and_true, List.isEmpty_iff, hne, if_false, hn, List.length_nil, Nat.cast_zero, sub_zero]
  unfold stringToNumber
  simp only [trim_digits hall, hhead 0x2D (by decide), hhead 0x2B (by decide), Bool.or_self, Bool.false_eq_true,
    if_false, hinf, radixLiteral_digits hall, hdec, Option.none_or, Option.getD_some, List.isEmpty_iff, hne]

/-- **`Number(String(n))` is `n`** for the safe integers. -/
theorem stringToNumber_natDigits {n : ℕ} (h : n < 2 ^ 53) : stringToNumber (natDigits n) = .fin n := by
  rw [stringToNumber_digits (allDigits_natDigits n) (natDigits_ne_nil n) (digitsValue_natDigits n),
    decimalToNum_natCast h]

/-- A digit string has a value. -/
theorem digitsValue_isSome {s : JsString} (h : AllDigits s) (acc : ℕ) : ∃ n, digitsValue 10 acc s = some n := by
  induction s generalizing acc with
  | nil => exact ⟨acc, rfl⟩
  | cons c s ih =>
    have hc : isDigit c = true := h c List.mem_cons_self
    have hlt : c.toNat - 0x30 < 10 := by
      have := isDigit_toNat hc
      omega
    rw [digitsValue, if_pos hc, if_pos hlt]
    exact ih (fun d hd => h d (List.mem_cons_of_mem c hd)) _

/-- Rounding to the nearest integer is at most the integral part lower. -/
theorem floor_le_roundHalfEven {q : ℚ} (hq : 0 ≤ q) : q - 1 < roundHalfEven q := by
  have hfloor : (q.floor.toNat : ℤ) = q.floor := Int.toNat_of_nonneg (Rat.le_floor_iff.mpr (by exact_mod_cast hq))
  have hlt : q < (q.floor.toNat : ℚ) + 1 := by
    have := Rat.lt_floor_add_one q
    rw [← hfloor] at this
    exact_mod_cast this
  unfold roundHalfEven
  dsimp only
  split_ifs <;> push_cast <;> linarith

/-- A number of 256 or more does not round to 255 or less. -/
theorem roundToDouble_large {n : ℕ} (h : 255 < n) :
    roundToDouble (n : ℚ) = .inf false ∨ ∃ q, roundToDouble (n : ℚ) = .fin q ∧ 255 < q := by
  have hpos : 0 < n := by omega
  have hq : (n : ℚ) ≠ 0 := by exact_mod_cast hpos.ne'
  have hneg : ¬((n : ℚ) < 0) := not_lt.mpr (Nat.cast_nonneg n)
  have hunit : (0 : ℚ) < (2 : ℚ) ^ ((Nat.log2 n : ℤ) - 52) := zpow_pos (by norm_num) _
  -- the last bit of the mantissa weighs at most `n / 2 ^ 52`
  have hsmall : (2 : ℚ) ^ ((Nat.log2 n : ℤ) - 52) * 2 ^ 52 ≤ n := by
    have hself : (2 : ℚ) ^ (Nat.log2 n : ℤ) ≤ n := by
      rw [zpow_natCast]
      exact_mod_cast Nat.log2_self_le hpos.ne'
    rw [← zpow_natCast (2 : ℚ) 52, ← zpow_add₀ (by norm_num)]
    simpa using hself
  have hround : (255 : ℚ) < roundHalfEven ((n : ℚ) / (2 : ℚ) ^ ((Nat.log2 n : ℤ) - 52)) *
      (2 : ℚ) ^ ((Nat.log2 n : ℤ) - 52) := by
    have hlow := floor_le_roundHalfEven (q := (n : ℚ) / (2 : ℚ) ^ ((Nat.log2 n : ℤ) - 52)) (by positivity)
    have hscaled := mul_lt_mul_of_pos_right hlow hunit
    rw [sub_mul, one_mul, div_mul_cancel₀ _ hunit.ne'] at hscaled
    have hn : (256 : ℚ) ≤ n := by exact_mod_cast h
    linarith
  unfold roundToDouble
  rw [if_neg hq]
  simp only [Nat.abs_cast, doubleExp_natCast hpos, if_neg hneg]
  split_ifs
  · exact Or.inl (by simp)
  · exact Or.inr ⟨_, rfl, hround⟩

theorem decimalToNum_large {n : ℕ} (h : 255 < n) :
    decimalToNum false n 0 = .inf false ∨ ∃ q, decimalToNum false n 0 = .fin q ∧ 255 < q := by
  unfold decimalToNum
  simp only [if_neg (by omega : ¬n = 0), Bool.false_eq_true, if_false]
  split_ifs with hbig hsmall
  · exact Or.inl rfl
  · omega
  · simpa using roundToDouble_large h

theorem safeNat?_natCast {n : ℕ} (h : n < 2 ^ 53) : Num.safeNat? (.fin n) = some n := by
  unfold Num.safeNat?
  simp only [Rat.den_natCast, Rat.num_natCast, Int.toNat_natCast]
  rw [if_pos ⟨trivial, by omega, by exact_mod_cast h⟩]

/-! ### The units of a printed number -/

/-- The units that `String(x)` is made of. -/
def NumberUnit (u : UInt16) : Prop := isDigit u = true ∨ u ∈ js "+-.efintyNaI"

instance (u : UInt16) : Decidable (NumberUnit u) := inferInstanceAs (Decidable (_ ∨ _))

theorem natDigits_units (n : ℕ) : ∀ u ∈ natDigits n, NumberUnit u := fun u hu => Or.inl (allDigits_natDigits n u hu)

theorem append_units {s t : JsString} (hs : ∀ u ∈ s, NumberUnit u) (ht : ∀ u ∈ t, NumberUnit u) :
    ∀ u ∈ s ++ t, NumberUnit u := List.forall_mem_append.mpr ⟨hs, ht⟩

theorem intDigits_units (z : ℤ) : ∀ u ∈ intDigits z, NumberUnit u := by
  unfold intDigits
  split
  · exact append_units (forall_units (by decide)) (natDigits_units _)
  · exact natDigits_units _

theorem positiveToString_units (q : ℚ) : ∀ u ∈ positiveToString q, NumberUnit u := by
  have hzeros : ∀ m, ∀ u ∈ List.replicate m (0x30 : UInt16), NumberUnit u := by
    intro m u hu
    rw [List.eq_of_mem_replicate hu]
    decide
  have htake : ∀ s m, ∀ u ∈ (natDigits s).take m, NumberUnit u := fun s m u hu =>
    natDigits_units s u (List.mem_of_mem_take hu)
  have hdrop : ∀ s m, ∀ u ∈ (natDigits s).drop m, NumberUnit u := fun s m u hu =>
    natDigits_units s u (List.mem_of_mem_drop hu)
  unfold positiveToString
  extract_lets n n'
  split
  split
  extract_lets ds e mant
  split
  · exact append_units (natDigits_units _) (hzeros _)
  split
  · exact append_units (append_units (htake _ _) (forall_units (by decide))) (hdrop _ _)
  split
  · exact append_units (append_units (forall_units (by decide)) (hzeros _)) (natDigits_units _)
  have hmant : ∀ u ∈ mant, NumberUnit u := by
    show ∀ u ∈ ite _ _ _, NumberUnit u
    split
    · exact natDigits_units _
    · exact append_units (append_units (htake _ _) (forall_units (by decide))) (hdrop _ _)
  refine append_units (append_units (append_units hmant (forall_units (by decide))) ?_) (intDigits_units _)
  split
  · exact forall_units (by decide)
  · exact List.forall_mem_nil _

theorem numberToString_units : ∀ x : Num, ∀ u ∈ numberToString x, NumberUnit u
  | .fin q => by
    rw [numberToString]
    split
    · exact intDigits_units _
    split
    · exact append_units (forall_units (by decide)) (positiveToString_units _)
    · exact positiveToString_units _
  | .inf true => forall_units (by decide)
  | .inf false => forall_units (by decide)
  | .nan => forall_units (by decide)

theorem intDigits_ne_nil (z : ℤ) : intDigits z ≠ [] := by
  unfold intDigits
  split
  · exact List.append_ne_nil_of_right_ne_nil _ (natDigits_ne_nil _)
  · exact natDigits_ne_nil _

theorem positiveToString_ne_nil (q : ℚ) : positiveToString q ≠ [] := by
  unfold positiveToString
  extract_lets n n'
  split
  split
  extract_lets ds e mant
  split
  · exact List.append_ne_nil_of_left_ne_nil (natDigits_ne_nil _) _
  split
  · exact List.append_ne_nil_of_left_ne_nil (List.append_ne_nil_of_right_ne_nil _ (by decide)) _
  split
  · exact List.append_ne_nil_of_right_ne_nil _ (natDigits_ne_nil _)
  · exact List.append_ne_nil_of_right_ne_nil _ (intDigits_ne_nil _)

theorem numberToString_ne_nil : ∀ x : Num, numberToString x ≠ []
  | .fin q => by
    rw [numberToString]
    split
    · exact intDigits_ne_nil _
    split
    · exact List.append_ne_nil_of_right_ne_nil _ (positiveToString_ne_nil _)
    · exact positiveToString_ne_nil _
  | .inf true => by decide
  | .inf false => by decide
  | .nan => by decide

end AgyProxy.Js

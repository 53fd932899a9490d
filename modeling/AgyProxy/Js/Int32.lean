import Mathlib.Data.BitVec

/-!
# AgyProxy.Js.Int32 — the 32-bit operators on integral numbers

`<<` and `&` work on the 32-bit pattern of their operands and give a signed result; `>>> 0` gives the unsigned
value of the pattern.  A shift count is taken modulo 32.

* `toInt32_shl`, `toInt32_bitAnd`: the patterns of the results; `toInt32_step`: one more byte at the end.
* `masked_eq_iff`: two words agree under a mask of leading ones exactly when their leading bits do.
-/

namespace AgyProxy.Js

/-- `ToInt32`, as a bit pattern. -/
def toInt32 (x : ℤ) : BitVec 32 := BitVec.ofInt 32 x

/-- `x << n`. -/
def shl (x : ℤ) (n : ℕ) : ℤ := (toInt32 x <<< (n % 32)).toInt

/-- `x & y`. -/
def bitAnd (x y : ℤ) : ℤ := (toInt32 x &&& toInt32 y).toInt

/-- `x >>> 0`. -/
def toUint32 (x : ℤ) : ℕ := (toInt32 x).toNat

/-- `0xffffffff`. -/
def allOnes32 : ℤ := 0xFFFFFFFF

example : shl 255 24 = -16777216 ∧ toUint32 (shl 255 24) = 0xFF000000 ∧ shl allOnes32 32 = -1 := by decide

@[simp] theorem toInt32_shl (x : ℤ) (n : ℕ) : toInt32 (shl x n) = toInt32 x <<< (n % 32) := BitVec.ofInt_toInt

@[simp] theorem toInt32_bitAnd (x y : ℤ) : toInt32 (bitAnd x y) = toInt32 x &&& toInt32 y := BitVec.ofInt_toInt

@[simp] theorem toInt32_natCast (n : ℕ) : toInt32 n = BitVec.ofNat 32 n := rfl

@[simp] theorem toInt32_toNat (a : BitVec 32) : toInt32 (a.toNat : ℤ) = a := by
  rw [toInt32_natCast, BitVec.ofNat_toNat, BitVec.setWidth_eq]

theorem toInt32_allOnes : toInt32 allOnes32 = BitVec.allOnes 32 := by decide

/-- `(out << 8) + n` appends a byte, whatever the sign of the shifted number. -/
theorem toInt32_step {out : ℤ} {m : ℕ} (h : toInt32 out = BitVec.ofNat 32 m) (n : ℕ) :
    toInt32 (shl out 8 + n) = BitVec.ofNat 32 (m * 256 + n) := by
  have hsum : toInt32 (shl out 8 + n) = toInt32 (shl out 8) + BitVec.ofNat 32 n := BitVec.ofInt_add _ _
  rw [hsum, toInt32_shl, h]
  refine BitVec.eq_of_toNat_eq ?_
  simp only [BitVec.toNat_add, BitVec.toNat_shiftLeft, BitVec.toNat_ofNat, Nat.shiftLeft_eq, Nat.reduceMod,
    Nat.reducePow]
  omega

/-- The first `bits` bits of two words agree. -/
def LeadingBitsAgree (bits : ℕ) (a b : BitVec 32) : Prop := ∀ i < bits, a.getMsbD i = b.getMsbD i

theorem leadingBitsAgree_all {a b : BitVec 32} : LeadingBitsAgree 32 a b ↔ a = b :=
  ⟨BitVec.eq_of_getMsbD_eq, fun h _ _ => h ▸ rfl⟩

/-- **A mask of leading ones** compares the leading bits. -/
theorem masked_eq_iff {a b : BitVec 32} {bits : ℕ} (h : bits ≤ 32) :
    a &&& (BitVec.allOnes 32 <<< (32 - bits)) = b &&& (BitVec.allOnes 32 <<< (32 - bits)) ↔
      LeadingBitsAgree bits a b := by
  have hbit : ∀ (x : BitVec 32) (i : ℕ), i < 32 →
      (x &&& (BitVec.allOnes 32 <<< (32 - bits))).getMsbD i = (x.getMsbD i && decide (i < bits)) := by
    intro x i hi
    rw [BitVec.getMsbD_and, BitVec.getMsbD_shiftLeft, BitVec.getMsbD_allOnes]
    have hlt : i + (32 - bits) < 32 ↔ i < bits := by omega
    simp only [hlt]
  constructor
  · intro heq i hi
    have hmasked := congrArg (fun x : BitVec 32 => x.getMsbD i) heq
    rwa [hbit a i (hi.trans_le h), hbit b i (hi.trans_le h), decide_eq_true hi, Bool.and_true, Bool.and_true] at hmasked
  · intro hagree
    refine BitVec.eq_of_getMsbD_eq fun i hi => ?_
    rw [hbit a i hi, hbit b i hi]
    by_cases hlt : i < bits
    · rw [hagree i hlt]
    · simp [hlt]

end AgyProxy.Js

import Mathlib.Algebra.Group.Nat.Defs
import Mathlib.Tactic.Common

/-! Fixed-width words: shifts and masks read as division and remainder of their values. -/

namespace Bits

variable {w : Nat}

/-- Dividing a remainder by a power keeps the remainder of the quotient. -/
theorem mod_pow_div_pow (value : Nat) {low high : Nat} (ordered : low ≤ high) :
    value % 2 ^ high / 2 ^ low = value / 2 ^ low % 2 ^ (high - low) := by
  -- The larger power is the smaller one times the power of the difference.
  have split : (2 : Nat) ^ high = 2 ^ low * 2 ^ (high - low) := by
    rw [← Nat.pow_add, Nat.add_sub_cancel' ordered]
  rw [split, Nat.mod_mul_right_div_self]

/-- The word whose lowest `count` bits are one. -/
def lowMask (w count : Nat) : BitVec w :=
  BitVec.ofNat w (2 ^ count - 1)

/-- Bit `i` of the low mask is one exactly below the count. -/
@[simp] theorem getLsbD_lowMask (count i : Nat) :
    (lowMask w count).getLsbD i = (decide (i < w) && decide (i < count)) := by
  -- The mask is one less than a power of two.
  rw [lowMask, BitVec.getLsbD_ofNat, Nat.testBit_two_pow_sub_one]

/-- Masking with the low ones is a remainder. -/
theorem toNat_and_lowMask (value : BitVec w) (count : Nat) (fits : count ≤ w) :
    (value &&& lowMask w count).toNat = value.toNat % 2 ^ count := by
  -- The mask fits in the word, so its own value is not reduced.
  have small : 2 ^ count - 1 < 2 ^ w := by
    have := Nat.pow_le_pow_right (n := 2) (by omega) fits
    have := Nat.two_pow_pos count
    omega
  rw [BitVec.toNat_and, lowMask, BitVec.toNat_ofNat, Nat.mod_eq_of_lt small,
    Nat.and_two_pow_sub_one_eq_mod]

/-- The parts of a word inside and outside a mask share no bit. -/
theorem and_and_and_not (value mask : BitVec w) :
    (value &&& mask) &&& (value &&& ~~~mask) = 0#w := by
  apply BitVec.eq_of_getLsbD_eq
  intro i inside
  -- No bit of the mask is both set and clear.
  simp only [BitVec.getLsbD_and, BitVec.getLsbD_not, BitVec.getLsbD_zero]
  cases value.getLsbD i <;> cases mask.getLsbD i <;> simp

/-- A word is the sum of its masked low part and the rest. -/
theorem and_add_and_not (value mask : BitVec w) :
    (value &&& mask) + (value &&& ~~~mask) = value := by
  -- The two parts share no bit, so adding them is joining them.
  rw [BitVec.add_eq_or_of_and_eq_zero _ _ (and_and_and_not value mask)]
  apply BitVec.eq_of_getLsbD_eq
  intro i inside
  simp only [BitVec.getLsbD_or, BitVec.getLsbD_and, BitVec.getLsbD_not, inside, decide_true,
    Bool.true_and]
  -- Each bit comes from one part or the other, whichever the mask says.
  cases value.getLsbD i <;> cases mask.getLsbD i <;> rfl

/-- Clearing the low ones rounds down to a multiple of the power. -/
theorem toNat_and_not_lowMask (value : BitVec w) (count : Nat) (fits : count ≤ w) :
    (value &&& ~~~lowMask w count).toNat = value.toNat - value.toNat % 2 ^ count := by
  -- The cleared part is the whole minus the kept part, and the sum never wraps.
  have sum := congrArg BitVec.toNat (and_add_and_not value (lowMask w count))
  have low := toNat_and_lowMask value count fits
  rw [BitVec.toNat_add_of_and_eq_zero (and_and_and_not value (lowMask w count))] at sum
  omega

/-- Toggling a clear bit adds its power. -/
theorem xor_twoPow_of_clear (value : BitVec w) {sign : Nat}
    (clear : value.getLsbD sign = false) :
    value ^^^ BitVec.twoPow w sign = value + BitVec.twoPow w sign := by
  -- The word and the power share no bit, so both operations join them.
  have apart : value &&& BitVec.twoPow w sign = 0#w := by
    apply BitVec.eq_of_getLsbD_eq
    intro i inside
    rw [BitVec.getLsbD_and, BitVec.getLsbD_twoPow, BitVec.getLsbD_zero]
    by_cases same : sign = i
    · rw [← same, clear, Bool.false_and]
    · simp [same]
  rw [BitVec.add_eq_or_of_and_eq_zero _ _ apart]
  apply BitVec.eq_of_getLsbD_eq
  intro i inside
  rw [BitVec.getLsbD_xor, BitVec.getLsbD_or, BitVec.getLsbD_twoPow]
  by_cases same : sign = i
  · rw [← same, clear, Bool.false_xor, Bool.false_or]
  · simp [same]

/-- Exclusive-or with the sign bit followed by subtracting it extends that bit upwards. -/
theorem xor_sub_eq_signExtend (value : BitVec w) {sign : Nat} (inside : sign < w)
    (small : value.toNat < 2 ^ (sign + 1)) :
    (value ^^^ BitVec.twoPow w sign) - BitVec.twoPow w sign =
      (value.setWidth (sign + 1)).signExtend w := by
  -- The field itself is small, so cutting it off above the sign loses nothing.
  have narrow : (value.setWidth (sign + 1)).toNat = value.toNat := by
    rw [BitVec.toNat_setWidth, Nat.mod_eq_of_lt small]
  have double : (2 : Nat) ^ (sign + 1) = 2 * 2 ^ sign := by rw [Nat.pow_succ, Nat.mul_comm]
  have room : (2 : Nat) ^ (sign + 1) ≤ 2 ^ w := Nat.pow_le_pow_right (by omega) inside
  have power := BitVec.toNat_twoPow_of_lt inside
  -- The top bit of the cut word is the sign.
  have top : (value.setWidth (sign + 1)).msb = value.getLsbD sign := by
    simp [BitVec.msb_setWidth]
  cases bit : value.getLsbD sign with
  | false =>
    -- A clear sign bit is set and then taken away again.
    rw [xor_twoPow_of_clear value bit, BitVec.add_sub_cancel,
      BitVec.signExtend_eq_setWidth_of_msb_false (top.trans bit)]
    apply BitVec.eq_of_toNat_eq
    rw [BitVec.toNat_setWidth, narrow, Nat.mod_eq_of_lt value.isLt]
  | true =>
    -- A set sign bit is removed twice, which wraps below zero exactly by its own weight.
    -- Taking the bit away and giving it back is adding its power to the rest.
    have rest : (value ^^^ BitVec.twoPow w sign).getLsbD sign = false := by
      simp [bit, inside]
    have whole := xor_twoPow_of_clear _ rest
    rw [BitVec.xor_assoc, BitVec.xor_self, BitVec.xor_zero] at whole
    have sum := congrArg BitVec.toNat whole
    -- A word with the bit set is at least its power.
    have least : 2 ^ sign ≤ value.toNat := by
      have set : value.toNat.testBit sign = true := bit
      exact Nat.ge_two_pow_of_testBit set
    apply BitVec.eq_of_toNat_eq
    rw [BitVec.toNat_signExtend, top, bit, if_pos rfl, BitVec.toNat_setWidth, narrow,
      Nat.mod_eq_of_lt value.isLt]
    generalize value ^^^ BitVec.twoPow w sign = low at sum ⊢
    rw [BitVec.toNat_add, power] at sum
    rw [BitVec.toNat_sub, power]
    have bound := low.isLt
    -- The sum that gives the word back cannot have wrapped, as the word is at least the power.
    have whole : value.toNat = low.toNat + 2 ^ sign := by
      rcases Nat.lt_or_ge (low.toNat + 2 ^ sign) (2 ^ w) with fits | wraps
      · rwa [Nat.mod_eq_of_lt fits] at sum
      · rw [Nat.mod_eq_sub_mod wraps, Nat.mod_eq_of_lt (by omega)] at sum
        omega
    rw [Nat.mod_eq_of_lt (by omega)]
    omega

end Bits

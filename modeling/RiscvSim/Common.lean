import RiscvSim.Lib.Bits

/-! Status codes, register-sized words and the bit-field helpers every component shares. -/

namespace RiscvSim

/-- Simulation status codes. -/
inductive SimStatus where
  | ok
  | csrNotSupported
  | physMemPageAlignError
  | physMemAccessFault
  | mmu64PageFault
  | mapperAlreadyMapped
  | mapperTableRegionEnd
  | mapperTableRegionPageMapped
  | simExit
  | simNotImplementedInstr
  | simPcAlignError
  | simUnalignedLoad
  | simUnalignedStore
  deriving DecidableEq, Repr

/-- Ways the process ends without returning a status. -/
inductive Abort where
  /-- A `SIM_ASSERT` whose condition is false, or a `SIM_UNREACHABLE` that is reached. -/
  | assertion
  /-- A call through a null entry of the dispatch table. -/
  | nullHandler
  /-- A read or write through a host pointer that no page was handed out for. -/
  | invalidPointer
  /-- A shift whose count reaches the width of its left operand. -/
  | undefinedShift
  /-- An instruction pointer moved past the last entry of a basic block. -/
  | pastBlockEnd
  deriving DecidableEq, Repr

/-- The value of a general purpose register. -/
abbrev RegValue := BitVec 64

/-- A physical address. -/
abbrev PhysAddr := RegValue

/-- A virtual address. -/
abbrev VirtAddr := RegValue

/-- An instruction word. -/
abbrev InstrCode := BitVec 32

/-- The size of an instruction word in bytes. -/
def instrCodeSize : RegValue := 4

/-- The privilege levels a translation can be asked for. -/
inductive PrivLevel where
  | user
  | supervisor
  | machine
  deriving DecidableEq, Repr

/-- The width of the type that narrower operands are promoted to. -/
def intWidth : Nat := 32

/-- Sign-extend the given value from the given bit, ignoring the bits above it. -/
def signExtend {w : Nat} (signIdx : Nat) (value : BitVec w) : BitVec w :=
  -- The top bit needs no extension, and the shift below would reach the full width.
  if signIdx = w - 1 then value
  else
    let value := value &&& ((1#w <<< (signIdx + 1)) - 1#w)
    let signMask := 1#w <<< signIdx
    (value ^^^ signMask) - signMask

/-- Get the value of the bit field that is stored in the range `[hi, lo]`. -/
def getBitField {w : Nat} (hi lo : Nat) (value : BitVec w) : BitVec w :=
  let leftShift := w - hi - 1
  -- A type narrower than `int` is shifted in `int`, where its upper bits are not lost.
  let promoted := value.setWidth (max w intWidth)
  ((promoted <<< leftShift) >>> (leftShift + lo)).setWidth w

/-- Set the bits `[hi, lo]`. -/
def setBitField {w : Nat} (hi lo : Nat) (value bitField : BitVec w) : BitVec w :=
  let hiShift := if hi + 1 = w then 0#w else 1#w <<< (hi + 1)
  let bitFieldMask := hiShift - (1#w <<< lo)
  let bitField := (bitField <<< lo) &&& bitFieldMask
  (value &&& ~~~bitFieldMask) ||| bitField

/-- Zero the bits outside the range `[hi, lo]`. -/
def maskBits {w : Nat} (hi lo : Nat) (value : BitVec w) : BitVec w :=
  getBitField hi lo value <<< lo

/-- From `int` upwards, a bit field is the selected run of bits. -/
theorem getBitField_eq_extractLsb {w hi lo : Nat} (value : BitVec w) (wide : intWidth ≤ w)
    (ordered : lo ≤ hi) (inside : hi < w) :
    getBitField hi lo value = (value.extractLsb' lo (hi - lo + 1)).setWidth w := by
  -- Promotion changes nothing, and the two shifts keep exactly the bits of the range.
  have widths : max w intWidth = w := Nat.max_eq_left wide
  unfold getBitField
  rw [widths]
  ext i bound
  simp only [BitVec.setWidth_eq, BitVec.getElem_ushiftRight, BitVec.getLsbD_shiftLeft,
    BitVec.getElem_setWidth, BitVec.getLsbD_extractLsb']
  grind

/-- From `int` upwards, a bit field is a quotient reduced to the length of its range. -/
theorem toNat_getBitField {w hi lo : Nat} (value : BitVec w) (wide : intWidth ≤ w)
    (ordered : lo ≤ hi) (inside : hi < w) :
    (getBitField hi lo value).toNat = value.toNat / 2 ^ lo % 2 ^ (hi - lo + 1) := by
  -- The extracted run already fits, so widening it keeps its value.
  rw [getBitField_eq_extractLsb value wide ordered inside, BitVec.toNat_setWidth,
    BitVec.extractLsb'_toNat, Nat.shiftRight_eq_div_pow]
  apply Nat.mod_eq_of_lt
  exact Nat.lt_of_lt_of_le (Nat.mod_lt _ (Nat.two_pow_pos _))
    (Nat.pow_le_pow_right (by omega) (by omega))

/-- Sign extension repeats the chosen bit of the truncated value. -/
theorem signExtend_eq {w signIdx : Nat} (value : BitVec w) (inside : signIdx < w) :
    signExtend signIdx value = (value.setWidth (signIdx + 1)).signExtend w := by
  unfold signExtend
  split
  · -- At the top bit the truncation is the value itself.
    rename_i top
    obtain rfl : w = signIdx + 1 := by omega
    rw [BitVec.setWidth_eq, BitVec.signExtend_eq]
  · -- Elsewhere the masked value fits below the mask that the exclusive-or toggles.
    rename_i below
    have room : (2 : Nat) ^ (signIdx + 1) < 2 ^ w := Nat.pow_lt_pow_right (by omega) (by omega)
    have positive := Nat.two_pow_pos (signIdx + 1)
    -- The power less one has all ones below it, as the power itself does not wrap.
    have mask : (1#w <<< (signIdx + 1)) - 1#w = Bits.lowMask w (signIdx + 1) := by
      have power : (1#w <<< (signIdx + 1)).toNat = 2 ^ (signIdx + 1) := by
        simp [Nat.shiftLeft_eq, Nat.mod_eq_of_lt room, Nat.mod_eq_of_lt (show 1 < 2 ^ w by omega)]
      apply BitVec.eq_of_toNat_eq
      rw [BitVec.toNat_sub_of_le, power, Bits.lowMask, BitVec.toNat_ofNat, BitVec.toNat_ofNat,
        Nat.mod_eq_of_lt (show 1 < 2 ^ w by omega), Nat.mod_eq_of_lt (by omega)]
      rw [BitVec.le_def, power, BitVec.toNat_ofNat, Nat.mod_eq_of_lt (by omega)]
      omega
    have power : 1#w <<< signIdx = BitVec.twoPow w signIdx := (BitVec.twoPow_eq w signIdx).symm
    -- Masking leaves a remainder, which is below the power.
    have small : (value &&& Bits.lowMask w (signIdx + 1)).toNat < 2 ^ (signIdx + 1) := by
      rw [Bits.toNat_and_lowMask value _ inside]
      exact Nat.mod_lt _ positive
    rw [mask, power, Bits.xor_sub_eq_signExtend _ inside small]
    congr 1
    -- The truncated value and the masked one have the same bits below the cut.
    ext i bound
    simp [show i < w by omega, bound]

/-- The mask of a bit field is a run of ones of its length, moved up to its lowest bit. -/
theorem bitFieldMask_eq {w hi lo : Nat} (ordered : lo ≤ hi) (inside : hi < w) :
    (if hi + 1 = w then 0#w else 1#w <<< (hi + 1)) - (1#w <<< lo) =
      Bits.lowMask w (hi - lo + 1) <<< lo := by
  have low : (2 : Nat) ^ lo < 2 ^ w := Nat.pow_lt_pow_right (by omega) (by omega)
  have one : 1 < 2 ^ w := Nat.lt_of_le_of_lt (Nat.two_pow_pos lo) low
  -- The mask ends where the run of ones does.
  have span : (2 : Nat) ^ (hi + 1) = 2 ^ (hi - lo + 1) * 2 ^ lo := by
    rw [← Nat.pow_add]
    congr 1
    omega
  have positive := Nat.two_pow_pos (hi - lo + 1)
  have length : 2 ^ (hi - lo + 1) - 1 < 2 ^ w := by
    have := Nat.pow_le_pow_right (n := 2) (by omega) (show hi - lo + 1 ≤ w by omega)
    omega
  -- Neither the lower power nor the moved run wraps.
  have lowPower : (1#w <<< lo).toNat = 2 ^ lo := by
    simp [Nat.shiftLeft_eq, Nat.mod_eq_of_lt one, Nat.mod_eq_of_lt low]
  have small : (2 ^ (hi - lo + 1) - 1) * 2 ^ lo < 2 ^ w := by
    have := Nat.pow_le_pow_right (n := 2) (by omega) (show hi + 1 ≤ w by omega)
    have := Nat.two_pow_pos lo
    rw [Nat.sub_mul, ← span]
    omega
  apply BitVec.eq_of_toNat_eq
  rw [BitVec.toNat_sub, lowPower, BitVec.toNat_shiftLeft, Bits.lowMask, BitVec.toNat_ofNat,
    Nat.mod_eq_of_lt length, Nat.shiftLeft_eq, Nat.mod_eq_of_lt small, Nat.sub_mul, ← span]
  have order : 2 ^ lo ≤ 2 ^ (hi + 1) := Nat.pow_le_pow_right (by omega) (by omega)
  split
  · -- The power above the top bit wraps to zero, and the subtraction wraps it back.
    rename_i top
    rw [BitVec.toNat_ofNat, Nat.zero_mod, Nat.add_zero, top, Nat.one_mul]
    have := Nat.two_pow_pos lo
    exact Nat.mod_eq_of_lt (by omega)
  · -- Otherwise the upper power fits, and the difference is that of the two powers.
    have above : (2 : Nat) ^ (hi + 1) < 2 ^ w := Nat.pow_lt_pow_right (by omega) (by omega)
    rw [BitVec.toNat_shiftLeft, BitVec.toNat_ofNat, Nat.mod_eq_of_lt one, Nat.shiftLeft_eq,
      Nat.one_mul, Nat.mod_eq_of_lt above, Nat.one_mul,
      show 2 ^ w - 2 ^ lo + 2 ^ (hi + 1) = 2 ^ (hi + 1) - 2 ^ lo + 2 ^ w by omega,
      Nat.add_mod_right]
    exact Nat.mod_eq_of_lt (by omega)

/-- Setting a bit field replaces the bits of its range and keeps the others. -/
theorem getLsbD_setBitField {w hi lo : Nat} (value bitField : BitVec w) (ordered : lo ≤ hi)
    (inside : hi < w) (i : Nat) :
    (setBitField hi lo value bitField).getLsbD i =
      if lo ≤ i ∧ i ≤ hi then bitField.getLsbD (i - lo) else value.getLsbD i := by
  -- The mask selects the shifted field inside the range and the old value outside.
  unfold setBitField
  simp only [bitFieldMask_eq ordered inside, BitVec.getLsbD_or, BitVec.getLsbD_and,
    BitVec.getLsbD_not, BitVec.getLsbD_shiftLeft, Bits.getLsbD_lowMask]
  -- A bit above the width is clear on both sides.
  by_cases bound : i < w
  · by_cases within : lo ≤ i ∧ i ≤ hi
    · simp [bound, within, show ¬i < lo by omega, show i - lo < w by omega,
        show i - lo < hi - lo + 1 by omega]
    · by_cases below : i < lo
      · simp [bound, within, below]
      · simp [bound, within, below, show ¬i - lo < hi - lo + 1 by omega]
  · simp [bound, BitVec.getLsbD_of_ge _ i (by omega : w ≤ i), show ¬i ≤ hi by omega]

end RiscvSim

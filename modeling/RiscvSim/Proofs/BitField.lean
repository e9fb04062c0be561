import RiscvSim.Simulator.SimInstr

/-! The laws of the bit field helpers, with the shifts they make in promoted types. -/

namespace RiscvSim

/-- Shift in the type that an operand is promoted to, and convert back. -/
def shiftPromoted {w : Nat} (shift : BitVec (max w intWidth) → Nat → BitVec (max w intWidth))
    (value : BitVec w) (count : Nat) : Except Abort (BitVec w) :=
  (shiftBy shift (value.setWidth _) count).map (·.setWidth w)

/-- Get a bit field, unless a shift is undefined. -/
def getBitFieldChecked {w : Nat} (hi lo : Nat) (value : BitVec w) : Except Abort (BitVec w) := do
  let leftShift := w - hi - 1
  let high ← shiftBy (· <<< ·) (value.setWidth (max w intWidth)) leftShift
  let field ← shiftBy (· >>> ·) high (leftShift + lo)
  return field.setWidth w

/-- Set a bit field, unless a shift is undefined. -/
def setBitFieldChecked {w : Nat} (hi lo : Nat) (value bitField : BitVec w) :
    Except Abort (BitVec w) := do
  let hiShift ← if hi + 1 = w then pure 0#w else shiftPromoted (· <<< ·) 1#w (hi + 1)
  let loShift ← shiftPromoted (· <<< ·) 1#w lo
  let bitFieldMask := hiShift - loShift
  let moved ← shiftPromoted (· <<< ·) bitField lo
  return (value &&& ~~~bitFieldMask) ||| (moved &&& bitFieldMask)

/-- Zero the bits outside a range, unless a shift is undefined. -/
def maskBitsChecked {w : Nat} (hi lo : Nat) (value : BitVec w) : Except Abort (BitVec w) := do
  let field ← getBitFieldChecked hi lo value
  shiftPromoted (· <<< ·) field lo

variable {w hi lo : Nat} {value bitField : BitVec w}

/-- A shift to the left in a promoted type gives the same low bits. -/
theorem shiftPromoted_left (count : Nat) (value : BitVec w) (below : count < w) :
    shiftPromoted (· <<< ·) value count = .ok (value <<< count) := by
  -- The promoted type is at least as wide, so the bits that are kept are there.
  have wide : w ≤ max w intWidth := Nat.le_max_left _ _
  have low : ((value.setWidth (max w intWidth)) <<< count).setWidth w = value <<< count := by
    apply BitVec.eq_of_getLsbD_eq
    intro i bound
    simp only [BitVec.getLsbD_setWidth, BitVec.getLsbD_shiftLeft, bound,
      show i < max w intWidth by omega, show i - count < max w intWidth by omega, decide_true,
      Bool.true_and]
  rw [shiftPromoted, shiftBy, if_pos (by omega)]
  exact congrArg Except.ok low

/-- The shifts of a bit field are defined. -/
theorem getBitFieldChecked_eq (ordered : lo ≤ hi) (inside : hi < w) :
    getBitFieldChecked hi lo value = .ok (getBitField hi lo value) := by
  -- Both counts stay below the width of the promoted type.
  have wide : w ≤ max w intWidth := Nat.le_max_left _ _
  simp only [getBitFieldChecked, shiftBy]
  rw [if_pos (by omega)]
  simp only [bind, Except.bind]
  rw [if_pos (by omega)]
  rfl

/-- The shifts of setting a bit field are defined. -/
theorem setBitFieldChecked_eq (ordered : lo ≤ hi) (inside : hi < w) :
    setBitFieldChecked hi lo value bitField = .ok (setBitField hi lo value bitField) := by
  -- The lower power and the field are shifted by less than the width.
  have least := shiftPromoted_left lo 1#w (by omega)
  have moved := shiftPromoted_left lo bitField (by omega)
  -- The power above the top bit is not shifted at all.
  by_cases top : hi + 1 = w
  · simp only [setBitFieldChecked, if_pos top, least, moved, bind, Except.bind, pure, Except.pure,
      setBitField]
  · have most := shiftPromoted_left (hi + 1) 1#w (by omega)
    simp only [setBitFieldChecked, if_neg top, most, least, moved, bind, Except.bind, pure,
      Except.pure, setBitField]

/-- The shifts of masking are defined. -/
theorem maskBitsChecked_eq (ordered : lo ≤ hi) (inside : hi < w) :
    maskBitsChecked hi lo value = .ok (maskBits hi lo value) := by
  -- The field is defined, and it is shifted back by less than the width.
  simp only [maskBitsChecked, getBitFieldChecked_eq ordered inside, bind, Except.bind]
  exact shiftPromoted_left lo _ (by omega)

/-- In a type of at most half the width of `int`, a bit field keeps the bits above it. -/
theorem toNat_getBitField_narrow (value : BitVec w) (narrow : 2 * w ≤ intWidth) (ordered : lo ≤ hi)
    (inside : hi < w) : (getBitField hi lo value).toNat = value.toNat / 2 ^ lo := by
  have widths : max w intWidth = intWidth := Nat.max_eq_right (by omega)
  have bound := value.isLt
  -- Shifting to the left loses no bit.
  have room : value.toNat * 2 ^ (w - hi - 1) < 2 ^ intWidth := by
    have shift : 2 ^ (w - hi - 1) ≤ 2 ^ w := Nat.pow_le_pow_right (by omega) (by omega)
    have square : 2 ^ w * 2 ^ w ≤ 2 ^ intWidth := by
      rw [← Nat.pow_add]
      exact Nat.pow_le_pow_right (by omega) (by omega)
    have product := Nat.mul_lt_mul_of_lt_of_le bound shift (Nat.two_pow_pos _)
    omega
  -- Nor does the conversion to the promoted type.
  have fits : value.toNat < 2 ^ intWidth := Nat.lt_of_lt_of_le bound
    (Nat.pow_le_pow_right (by omega) (by omega))
  have below : value.toNat / 2 ^ lo < 2 ^ w := Nat.lt_of_le_of_lt (Nat.div_le_self _ _) bound
  rw [getBitField, widths, BitVec.toNat_setWidth, BitVec.toNat_ushiftRight, BitVec.toNat_shiftLeft,
    BitVec.toNat_setWidth, Nat.mod_eq_of_lt fits, Nat.shiftLeft_eq, Nat.mod_eq_of_lt room,
    Nat.shiftRight_eq_div_pow, Nat.pow_add, ← Nat.div_div_eq_div_mul,
    Nat.mul_div_cancel _ (Nat.two_pow_pos _), Nat.mod_eq_of_lt below]

/-- The helpers isolate a field of this value: the type is wide, or no bit is set above it. -/
def Isolates {w : Nat} (hi : Nat) (value : BitVec w) : Prop :=
  intWidth ≤ w ∨ value.toNat < 2 ^ (hi + 1)

/-- The helpers are used with types whose fields cannot be lost by promotion. -/
def Sized (w : Nat) : Prop := intWidth ≤ w ∨ 2 * w ≤ intWidth

/-- A bit above the field of an isolated value is clear, where promotion keeps it. -/
theorem Isolates.above (isolates : Isolates hi value) (narrow : ¬intWidth ≤ w) {i : Nat}
    (above : hi < i) : value.getLsbD i = false := by
  rcases isolates with wide | small
  · -- The bits above the field are those of a number that is too small for them.
    exact absurd wide narrow
  · apply Nat.testBit_lt_two_pow
    exact Nat.lt_of_lt_of_le small (Nat.pow_le_pow_right (by omega) (by omega))

/-- The bits of a field that is isolated. -/
theorem getLsbD_getBitField (sized : Sized w) (isolates : Isolates hi value) (ordered : lo ≤ hi)
    (inside : hi < w) (i : Nat) :
    (getBitField hi lo value).getLsbD i = (decide (i < hi - lo + 1) && value.getLsbD (lo + i)) := by
  by_cases wide : intWidth ≤ w
  · -- A wide type is not promoted, so the left shift has cut the upper bits off.
    rw [getBitField_eq_extractLsb value wide ordered inside, BitVec.getLsbD_setWidth,
      BitVec.getLsbD_extractLsb']
    by_cases within : i < hi - lo + 1
    · simp [within, show i < w by omega]
    · simp [within]
  · -- The field is a quotient, whose upper bits are the clear ones above the field.
    have quotient : getBitField hi lo value = value >>> lo := by
      apply BitVec.eq_of_toNat_eq
      rw [toNat_getBitField_narrow value (sized.resolve_left wide) ordered inside,
        BitVec.toNat_ushiftRight, Nat.shiftRight_eq_div_pow]
    rw [quotient, BitVec.getLsbD_ushiftRight]
    by_cases within : i < hi - lo + 1
    · simp [within]
    · -- Behind the field the quotient shows the bits above it.
      rw [isolates.above wide (by omega)]
      simp

/-- Setting a field of an isolated value isolates it again. -/
theorem Isolates.afterSet (bitField : BitVec w) (isolates : Isolates hi value) (ordered : lo ≤ hi)
    (inside : hi < w) : Isolates hi (setBitField hi lo value bitField) := by
  by_cases wide : intWidth ≤ w
  · exact .inl wide
  · -- Setting changes no bit above the field, and those are clear.
    refine .inr (Nat.lt_pow_two_of_testBit _ fun i above => ?_)
    change (setBitField hi lo value bitField).getLsbD i = false
    rw [getLsbD_setBitField value bitField ordered inside, if_neg (by omega)]
    exact isolates.above wide (by omega)

/-- What the helpers promise about a field of a value. -/
structure FieldLaws (hi lo : Nat) (value bitField : BitVec w) : Prop where
  get : (getBitField hi lo value).toNat = value.toNat / 2 ^ lo % 2 ^ (hi - lo + 1)
  mask : ∀ i, (maskBits hi lo value).getLsbD i =
    (decide (lo ≤ i ∧ i ≤ hi) && value.getLsbD i)
  getSet : (getBitField hi lo (setBitField hi lo value bitField)).toNat =
    bitField.toNat % 2 ^ (hi - lo + 1)
  kept : ∀ i, ¬(lo ≤ i ∧ i ≤ hi) →
    (setBitField hi lo value bitField).getLsbD i = value.getLsbD i
  /-- No shift is undefined. -/
  shifts : getBitFieldChecked hi lo value = .ok (getBitField hi lo value) ∧
    maskBitsChecked hi lo value = .ok (maskBits hi lo value) ∧
    setBitFieldChecked hi lo value bitField = .ok (setBitField hi lo value bitField)

/-- In a type of a good width, the laws hold exactly for the values whose field is isolated. -/
theorem fieldLaws_iff_isolates (sized : Sized w) (ordered : lo ≤ hi) (inside : hi < w)
    (value bitField : BitVec w) :
    FieldLaws hi lo value bitField ↔ Isolates hi value := by
  constructor
  · intro laws
    by_cases wide : intWidth ≤ w
    · exact .inl wide
    · right
      -- The field is the whole quotient, which the promise bounds.
      have field := laws.get
      rw [toNat_getBitField_narrow value (sized.resolve_left wide) ordered inside] at field
      have below := Nat.mod_lt (value.toNat / 2 ^ lo) (Nat.two_pow_pos (hi - lo + 1))
      rw [← field, Nat.div_lt_iff_lt_mul (Nat.two_pow_pos lo), ← Nat.pow_add,
        show hi - lo + 1 + lo = hi + 1 by omega] at below
      exact below
  · intro isolates
    have bits := getLsbD_getBitField sized isolates ordered inside
    refine
      { get := ?_
        mask := ?_
        getSet := ?_
        kept := ?_
        shifts := ⟨getBitFieldChecked_eq ordered inside, maskBitsChecked_eq ordered inside,
          setBitFieldChecked_eq ordered inside⟩ }
    · apply Nat.eq_of_testBit_eq
      -- The number of the field is decided bit by bit.
      intro i
      rw [BitVec.testBit_toNat, bits, Nat.testBit_mod_two_pow, Nat.testBit_div_two_pow,
        BitVec.testBit_toNat, Nat.add_comm i]
    · intro i
      -- The mask moves the field back to its place.
      rw [maskBits, BitVec.getLsbD_shiftLeft, bits]
      by_cases within : lo ≤ i ∧ i ≤ hi
      · simp [within, show i < w by omega, show ¬i < lo by omega,
          show i - lo < hi - lo + 1 by omega, show lo + (i - lo) = i by omega]
      · by_cases below : i < lo
        · simp [within, below]
        · simp [within, below, show ¬i - lo < hi - lo + 1 by omega]
    · have setBits := getLsbD_getBitField sized (isolates.afterSet bitField ordered
        inside) ordered inside
      apply Nat.eq_of_testBit_eq
      -- The field that is read back is the lowest part of the one that was set.
      intro i
      rw [BitVec.testBit_toNat, setBits, getLsbD_setBitField value bitField ordered inside,
        Nat.testBit_mod_two_pow, BitVec.testBit_toNat]
      by_cases within : i < hi - lo + 1
      · rw [if_pos (by omega), show lo + i - lo = i by omega]
      · simp [within]
    · intro i outside
      rw [getLsbD_setBitField value bitField ordered inside, if_neg outside]

/-- The widths of the unsigned types that the helpers are used with. -/
def unsignedWidths : List Nat := [8, 16, 32, 64]

/-- Those widths are good ones. -/
theorem sized_of_mem (listed : w ∈ unsignedWidths) : Sized w := by
  -- Bytes and half words are promoted, and the others are as wide as `int`.
  simp only [unsignedWidths, List.mem_cons, List.not_mem_nil, or_false] at listed
  rcases listed with rfl | rfl | rfl | rfl
  · exact .inr (by simp [intWidth])
  · exact .inr (by simp [intWidth])
  · exact .inl (by simp [intWidth])
  · exact .inl (by simp [intWidth])

/-- The helpers keep their promise exactly for the values whose field they isolate. -/
theorem fieldLaws_iff (listed : w ∈ unsignedWidths) (ordered : lo ≤ hi) (inside : hi < w)
    (value bitField : BitVec w) :
    FieldLaws hi lo value bitField ↔ Isolates hi value := by
  exact fieldLaws_iff_isolates (sized_of_mem listed) ordered inside value bitField

/-- A field of a byte without upper bits. -/
theorem fieldLaws_iff_byte : FieldLaws 3 0 0x0f#8 0x05#8 ↔ Isolates 3 0x0f#8 := by
  exact fieldLaws_iff (by simp [unsignedWidths]) (by omega) (by omega) 0x0f#8 0x05#8

/-- The low half of a full byte is the full byte. -/
theorem not_fieldLaws_byte : ¬FieldLaws 3 0 0xff#8 0x00#8 := by
  intro laws
  exact absurd laws.get (by decide)

end RiscvSim

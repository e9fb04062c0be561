import RiscvSim.Memory.Mmu64
import RiscvSim.Proofs.BitField

/-! Register values: packing, unpacking, and what a history of writes leaves in the file. -/

namespace RiscvSim

namespace ModeValue

/-- A mode is recovered from its encoding. -/
@[simp] theorem ofRaw_raw (mode : ModeValue) : ofRaw mode.raw = some mode := by
  cases mode <;> rfl

/-- Every encoding takes four bits. -/
theorem raw_lt (mode : ModeValue) : mode.raw.toNat < 2 ^ 4 := by
  cases mode <;> decide

/-- The bits above the encoding are clear. -/
theorem getLsbD_raw (mode : ModeValue) {i : Nat} (above : 4 ≤ i) : mode.raw.getLsbD i = false := by
  apply Nat.testBit_lt_two_pow
  exact Nat.lt_of_lt_of_le mode.raw_lt (Nat.pow_le_pow_right (by omega) above)

end ModeValue

/-- The number in a field of a raw value. -/
theorem toNat_rawField (value : RawValue) {hi lo : Nat} (ordered : lo ≤ hi) (inside : hi < 64) :
    (getBitField hi lo value).toNat = value.toNat / 2 ^ lo % 2 ^ (hi - lo + 1) := by
  -- Raw values are wider than `int`, so no bit survives the left shift.
  exact toNat_getBitField value (by simp [intWidth]) ordered inside

/-- The bits of a field of a raw value. -/
theorem getLsbD_rawField (value : RawValue) {hi lo : Nat} (ordered : lo ≤ hi) (inside : hi < 64)
    (i : Nat) :
    (getBitField hi lo value).getLsbD i = (decide (i < hi - lo + 1) && value.getLsbD (lo + i)) := by
  -- Raw values are wider than `int`, so every field of theirs is isolated.
  exact getLsbD_getBitField (.inl (by simp [intWidth])) (.inl (by simp [intWidth])) ordered inside i

namespace SATP64

/-- The fields lie next to each other in the packed value. -/
theorem getLsbD_getValue (satp : SATP64) {i : Nat} (bound : i < 64) :
    satp.getValue.getLsbD i =
      if i < 44 then satp.ppn.getLsbD i
      else if i < 60 then satp.asid.getLsbD (i - 44)
      else satp.mode.raw.getLsbD (i - 60) := by
  rw [getValue, getLsbD_setBitField _ _ (by omega) (by omega),
    getLsbD_setBitField _ _ (by omega) (by omega), getLsbD_setBitField _ _ (by omega) (by omega)]
  -- Each bit belongs to the last field whose range it is in.
  by_cases low : i < 44
  · simp [low, show i ≤ 43 by omega]
  · by_cases middle : i < 60
    · simp [low, middle, show ¬i ≤ 43 by omega, show 44 ≤ i ∧ i ≤ 59 by omega,
        show i - 44 < 64 by omega]
    · simp [low, middle, show ¬i ≤ 43 by omega, show ¬i ≤ 59 by omega,
        show 60 ≤ i ∧ i ≤ 63 by omega, show i - 60 < 64 by omega]

/-- The mode field of a packed value. -/
theorem modeField_getValue (satp : SATP64) :
    (getBitField 63 60 satp.getValue).setWidth 8 = satp.mode.raw := by
  apply BitVec.eq_of_getLsbD_eq
  intro i bound
  rw [BitVec.getLsbD_setWidth, getLsbD_rawField _ (by omega) (by omega)]
  -- Above its four bits the encoding is clear, as is the field that is narrowed.
  by_cases field : i < 4
  · rw [getLsbD_getValue satp (by omega)]
    simp [field, bound, show ¬60 + i < 44 by omega, show ¬60 + i < 60 by omega]
  · simp [field, satp.mode.getLsbD_raw (show 4 ≤ i by omega)]

/-- The address space field of a packed value. -/
theorem asidField_getValue (satp : SATP64) :
    (getBitField 59 44 satp.getValue).setWidth 16 = satp.asid := by
  -- The field has just the sixteen bits that are kept.
  apply BitVec.eq_of_getLsbD_eq
  intro i bound
  rw [BitVec.getLsbD_setWidth, getLsbD_rawField _ (by omega) (by omega),
    getLsbD_getValue satp (by omega)]
  simp [bound, show ¬44 + i < 44 by omega, show 44 + i < 60 by omega]

/-- The page number field of a packed value. -/
theorem ppnField_getValue (satp : SATP64) :
    getBitField 43 0 satp.getValue = getBitField 43 0 satp.ppn := by
  apply BitVec.eq_of_getLsbD_eq
  intro i bound
  rw [getLsbD_rawField _ (by omega) (by omega), getLsbD_rawField _ (by omega) (by omega)]
  -- Packing may only lose the bits that do not fit the field.
  by_cases field : i < 44
  · rw [getLsbD_getValue satp (by omega)]
    simp [field]
  · simp [field]

/-- Unpacking a packed value cuts the page number to its field. -/
theorem setValue_getValue (satp : SATP64) :
    setValue satp.getValue = { satp with ppn := getBitField 43 0 satp.ppn } := by
  -- The other two fields have the width of what they hold.
  simp only [setValue, modeField_getValue, asidField_getValue, ppnField_getValue,
    ModeValue.ofRaw_raw]

/-- The page number fits its field. -/
def Narrow (satp : SATP64) : Prop := satp.ppn.toNat < 2 ^ 44

/-- Unpacking gives a page number that fits. -/
theorem narrow_setValue (rawValue : RawValue) : (setValue rawValue).Narrow := by
  -- The field that is read has forty-four bits.
  rw [Narrow, setValue, toNat_rawField _ (by omega) (by omega)]
  exact Nat.mod_lt _ (Nat.two_pow_pos _)

/-- A register is recovered from its packed value exactly if the page number fits. -/
theorem setValue_getValue_iff (satp : SATP64) : setValue satp.getValue = satp ↔ satp.Narrow := by
  have field : (getBitField 43 0 satp.ppn).toNat = satp.ppn.toNat % 2 ^ 44 := by
    rw [toNat_rawField _ (by omega) (by omega), Nat.pow_zero, Nat.div_one]
  constructor
  · intro same
    -- What was unpacked always fits.
    rw [← same]
    exact narrow_setValue _
  · intro narrow
    rw [setValue_getValue]
    -- A number that fits is not cut.
    have kept : getBitField 43 0 satp.ppn = satp.ppn := by
      apply BitVec.eq_of_toNat_eq
      rw [field]
      exact Nat.mod_eq_of_lt narrow
    rw [kept]

end SATP64

namespace MSTATUS64

/-- Each field is one bit of the packed value. -/
theorem getLsbD_getValue (mstatus : MSTATUS64) {i : Nat} (bound : i < 64) :
    mstatus.getValue.getLsbD i =
      if i = 18 then mstatus.sum.getLsbD 0
      else if i = 19 then mstatus.mxr.getLsbD 0
      else false := by
  rw [getValue, getLsbD_setBitField _ _ (by omega) (by omega),
    getLsbD_setBitField _ _ (by omega) (by omega)]
  -- The two flags have bits of their own, and every other bit is clear.
  by_cases sum : i = 18
  · simp [sum]
  · by_cases mxr : i = 19
    · simp [mxr]
    · simp [sum, mxr, show ¬(19 ≤ i ∧ i ≤ 19) by omega, show ¬(18 ≤ i ∧ i ≤ 18) by omega]

/-- A one-bit field of a raw value. -/
theorem toNat_flag (rawValue : RawValue) {i : Nat} (inside : i < 64) :
    ((getBitField i i rawValue).setWidth 8).toNat = (rawValue.getLsbD i).toNat := by
  rw [BitVec.toNat_setWidth, toNat_rawField _ (by omega) inside,
    BitVec.getLsbD, Nat.testBit_eq_decide_div_mod_eq]
  -- The field has one bit, so that it is zero or one.
  rcases Nat.mod_two_eq_zero_or_one (rawValue.toNat / 2 ^ i) with even | odd
  · simp [even]
  · simp [odd]

/-- The flags are single bits. -/
def Narrow (mstatus : MSTATUS64) : Prop := mstatus.sum.toNat < 2 ∧ mstatus.mxr.toNat < 2

/-- Unpacking gives single bits. -/
theorem narrow_setValue (rawValue : RawValue) : (setValue rawValue).Narrow := by
  -- Each flag is read from a single bit.
  have sum := toNat_flag rawValue (show 18 < 64 by omega)
  have mxr := toNat_flag rawValue (show 19 < 64 by omega)
  have boolean (bit : Bool) : bit.toNat < 2 := by cases bit <;> simp
  exact ⟨by rw [setValue, sum]; exact boolean _, by rw [setValue, mxr]; exact boolean _⟩

/-- A byte that is a single bit is that bit. -/
theorem eq_of_lt_two {flag : BitVec 8} (narrow : flag.toNat < 2) :
    (flag.getLsbD 0).toNat = flag.toNat := by
  rw [BitVec.getLsbD, Nat.testBit_eq_decide_div_mod_eq]
  -- The byte is zero or one.
  rcases Nat.lt_succ_iff_lt_or_eq.1 narrow with zero | one
  · simp [Nat.lt_one_iff.1 zero]
  · simp [one]

/-- A register is recovered from its packed value exactly if its flags are single bits. -/
theorem setValue_getValue_iff (mstatus : MSTATUS64) :
    setValue mstatus.getValue = mstatus ↔ mstatus.Narrow := by
  constructor
  · intro same
    rw [← same]
    exact narrow_setValue _
  · intro narrow
    -- A single bit goes to its place and comes back.
    have sum : (getBitField 18 18 mstatus.getValue).setWidth 8 = mstatus.sum := by
      apply BitVec.eq_of_toNat_eq
      rw [toNat_flag _ (by omega), getLsbD_getValue mstatus (by omega), if_pos rfl,
        eq_of_lt_two narrow.1]
    have mxr : (getBitField 19 19 mstatus.getValue).setWidth 8 = mstatus.mxr := by
      apply BitVec.eq_of_toNat_eq
      rw [toNat_flag _ (by omega), getLsbD_getValue mstatus (by omega), if_neg (by omega),
        if_pos rfl, eq_of_lt_two narrow.2]
    simp only [setValue, sum, mxr]

end MSTATUS64

namespace SATP64

/-- A public operation on the register. -/
inductive Call where
  | setValue (rawValue : RawValue)
  | setMODE (value : ModeValue)
  | setASID (value : BitVec 16)
  | setPPN (value : BitVec 64)
  deriving DecidableEq, Repr

/-- What a call leaves. -/
def Call.apply (satp : SATP64) : Call → SATP64
  | setValue rawValue => SATP64.setValue rawValue
  | setMODE value => satp.setMODE value
  | setASID value => satp.setASID value
  | setPPN value => satp.setPPN value

/-- Construct a register and make calls, the newest first. -/
def replay (rawValue : RawValue) : List Call → SATP64
  | [] => SATP64.setValue rawValue
  | call :: earlier => call.apply (replay rawValue earlier)

/-- The last page number that was set since the last raw write fits its field. -/
def FitsPPN : List Call → Prop
  | [] => True
  | .setValue _ :: _ => True
  | .setPPN value :: _ => value.toNat < 2 ^ 44
  | .setMODE _ :: earlier => FitsPPN earlier
  | .setASID _ :: earlier => FitsPPN earlier

/-- The page number fits exactly if the last one that was set fits. -/
theorem narrow_replay_iff (rawValue : RawValue) (calls : List Call) :
    (replay rawValue calls).Narrow ↔ FitsPPN calls := by
  -- Only setting the page number and writing the whole register change it.
  induction calls with
  | nil => exact iff_of_true (narrow_setValue rawValue) trivial
  | cons call earlier ih =>
    cases call with
    | setValue rawValue => exact iff_of_true (narrow_setValue rawValue) trivial
    | setPPN value => exact Iff.rfl
    -- The other setters leave the page number alone.
    | setMODE value => exact ih
    | setASID value => exact ih

/-- Every getter returns the bits of its field, and the packed value holds the whole register. -/
structure Canonical (satp : SATP64) : Prop where
  mode : satp.mode.raw.toNat = satp.getValue.toNat / 2 ^ 60 % 2 ^ 4
  asid : satp.asid.toNat = satp.getValue.toNat / 2 ^ 44 % 2 ^ 16
  ppn : satp.ppn.toNat = satp.getValue.toNat % 2 ^ 44
  rebuilt : SATP64.setValue satp.getValue = satp

/-- A register is canonical exactly if its page number fits. -/
theorem canonical_iff_narrow (satp : SATP64) : satp.Canonical ↔ satp.Narrow := by
  constructor
  · -- A register that is rebuilt fits, as what was unpacked does.
    intro canonical
    exact satp.setValue_getValue_iff.1 canonical.rebuilt
  · intro narrow
    have rebuilt := satp.setValue_getValue_iff.2 narrow
    -- The fields of the packed value are what they were packed from.
    have mode := congrArg BitVec.toNat satp.modeField_getValue
    have asid := congrArg BitVec.toNat satp.asidField_getValue
    have ppn := congrArg BitVec.toNat (congrArg SATP64.ppn rebuilt)
    rw [BitVec.toNat_setWidth, toNat_rawField _ (by omega) (by omega)]
      at mode asid
    simp only [SATP64.setValue] at ppn
    rw [toNat_rawField _ (by omega) (by omega), Nat.pow_zero,
      Nat.div_one] at ppn
    exact
      { mode := by omega
        asid := by omega
        ppn := ppn.symm
        rebuilt := rebuilt }

end SATP64

namespace MSTATUS64

/-- A public operation on the register. -/
inductive Call where
  | setValue (rawValue : RawValue)
  | setSUM (value : BitVec 8)
  | setMXR (value : BitVec 8)
  deriving DecidableEq, Repr

/-- What a call leaves. -/
def Call.apply (mstatus : MSTATUS64) : Call → MSTATUS64
  | setValue rawValue => MSTATUS64.setValue rawValue
  | setSUM value => mstatus.setSUM value
  | setMXR value => mstatus.setMXR value

/-- Construct a register and make calls, the newest first. -/
def replay (rawValue : RawValue) : List Call → MSTATUS64
  | [] => MSTATUS64.setValue rawValue
  | call :: earlier => call.apply (replay rawValue earlier)

/-- The last argument of `setSUM` since the last raw write is a single bit. -/
def FitsSUM : List Call → Prop
  | [] => True
  | .setValue _ :: _ => True
  | .setSUM value :: _ => value.toNat < 2
  | .setMXR _ :: earlier => FitsSUM earlier

/-- The last argument of `setMXR` since the last raw write is a single bit. -/
def FitsMXR : List Call → Prop
  | [] => True
  | .setValue _ :: _ => True
  | .setMXR value :: _ => value.toNat < 2
  | .setSUM _ :: earlier => FitsMXR earlier

/-- The first flag is a single bit exactly if the last one that was set is. -/
theorem sum_replay_iff (rawValue : RawValue) (calls : List Call) :
    (replay rawValue calls).sum.toNat < 2 ↔ FitsSUM calls := by
  -- The other setter leaves this flag alone.
  induction calls with
  | nil => exact iff_of_true (narrow_setValue rawValue).1 trivial
  | cons call earlier ih =>
    cases call with
    | setValue rawValue => exact iff_of_true (narrow_setValue rawValue).1 trivial
    | setSUM value => exact Iff.rfl
    | setMXR value => exact ih

/-- The second flag is a single bit exactly if the last one that was set is. -/
theorem mxr_replay_iff (rawValue : RawValue) (calls : List Call) :
    (replay rawValue calls).mxr.toNat < 2 ↔ FitsMXR calls := by
  -- The other setter leaves this flag alone.
  induction calls with
  | nil => exact iff_of_true (narrow_setValue rawValue).2 trivial
  | cons call earlier ih =>
    cases call with
    | setValue rawValue => exact iff_of_true (narrow_setValue rawValue).2 trivial
    | setMXR value => exact Iff.rfl
    | setSUM value => exact ih

/-- Every getter returns the bits of its field, and the packed value holds the whole register. -/
structure Canonical (mstatus : MSTATUS64) : Prop where
  sum : mstatus.sum.toNat = mstatus.getValue.toNat / 2 ^ 18 % 2
  mxr : mstatus.mxr.toNat = mstatus.getValue.toNat / 2 ^ 19 % 2
  rebuilt : MSTATUS64.setValue mstatus.getValue = mstatus

/-- A register is canonical exactly if its flags are single bits. -/
theorem canonical_iff_narrow (mstatus : MSTATUS64) : mstatus.Canonical ↔ mstatus.Narrow := by
  constructor
  · intro canonical
    -- A register that is rebuilt fits, as what was unpacked does.
    exact mstatus.setValue_getValue_iff.1 canonical.rebuilt
  · intro narrow
    have rebuilt := mstatus.setValue_getValue_iff.2 narrow
    -- The flags that are unpacked are the register's own.
    have sum := congrArg BitVec.toNat (congrArg MSTATUS64.sum rebuilt)
    have mxr := congrArg BitVec.toNat (congrArg MSTATUS64.mxr rebuilt)
    simp only [MSTATUS64.setValue] at sum mxr
    rw [BitVec.toNat_setWidth, toNat_rawField _ (by omega) (by omega)]
      at sum mxr
    exact
      { sum := by omega
        mxr := by omega
        rebuilt := rebuilt }

end MSTATUS64

/-- The registers are canonical, so that translation cannot tell them from the rebuilt ones. -/
structure RegistersCanonical (satp64 : SATP64) (mstatus64 : MSTATUS64) : Prop where
  satp : satp64.Canonical
  mstatus : mstatus64.Canonical
  translates : ∀ (memory : PhysMemory) (privLevel : PrivLevel) (accessType : AccessType)
    (va : VirtAddr),
    translate memory (MSTATUS64.setValue mstatus64.getValue) (SATP64.setValue satp64.getValue)
        privLevel accessType va =
      translate memory mstatus64 satp64 privLevel accessType va

/-- Registers stay canonical exactly while no setter stores a value wider than its field. -/
theorem registersCanonical_iff (satpRaw mstatusRaw : RawValue) (satpCalls : List SATP64.Call)
    (mstatusCalls : List MSTATUS64.Call) :
    RegistersCanonical (SATP64.replay satpRaw satpCalls)
        (MSTATUS64.replay mstatusRaw mstatusCalls) ↔
      SATP64.FitsPPN satpCalls ∧ MSTATUS64.FitsSUM mstatusCalls ∧
        MSTATUS64.FitsMXR mstatusCalls := by
  rw [← SATP64.narrow_replay_iff satpRaw, ← MSTATUS64.sum_replay_iff mstatusRaw,
    ← MSTATUS64.mxr_replay_iff mstatusRaw]
  constructor
  · -- A canonical register fits, for each of the two.
    intro canonical
    exact ⟨(SATP64.canonical_iff_narrow _).1 canonical.satp,
      (MSTATUS64.canonical_iff_narrow _).1 canonical.mstatus⟩
  · intro narrow
    have satp := (SATP64.canonical_iff_narrow _).2 narrow.1
    have mstatus := (MSTATUS64.canonical_iff_narrow _).2 narrow.2
    refine { satp := satp, mstatus := mstatus, translates := ?_ }
    -- The rebuilt registers are the registers themselves.
    intro memory privLevel accessType va
    rw [satp.rebuilt, mstatus.rebuilt]

/-- A page number above its field is kept by the setter and lost by packing. -/
theorem not_registersCanonical_ppn :
    ¬RegistersCanonical (SATP64.replay 0 [.setPPN 0x100000000000]) (MSTATUS64.replay 0 []) := by
  -- The setter keeps the forty-fifth bit, which the packed value has no room for.
  intro canonical
  exact absurd canonical.satp.ppn (by decide)

end RiscvSim

import RiscvSim.Proofs.Csr

/-! The register file over any history of writes. -/

namespace RiscvSim

/-- The value that a raw write of SATP leaves: an illegal mode becomes zero. -/
def legalSatp (value : RawValue) : RawValue :=
  if value.toNat / 2 ^ 60 ∈ [0, 8, 9, 10] then value else value &&& 0x0fffffffffffffff

/-- The value that a raw write of MSTATUS leaves: the bits 18 and 19. -/
def legalMstatus (value : RawValue) : RawValue := value &&& 0x00000000000c0000

/-- The encodings that are listed are the legal ones. -/
theorem ModeValue.ofRaw_listed {value : BitVec 8} (listed : value.toNat ∈ [0, 8, 9, 10]) :
    ∃ mode, ofRaw value = some mode ∧ mode.raw = value := by
  -- The encodings are those of the four modes.
  have equal (mode : ModeValue) (same : value.toNat = mode.raw.toNat) :
      ∃ mode, ofRaw value = some mode ∧ mode.raw = value := by
    refine ⟨mode, ?_, BitVec.eq_of_toNat_eq same.symm⟩
    rw [BitVec.eq_of_toNat_eq same, ofRaw_raw]
  simp only [List.mem_cons, List.not_mem_nil, or_false] at listed
  rcases listed with bare | sv39 | sv48 | sv57
  · exact equal .bare bare
  · exact equal .sv39 sv39
  · exact equal .sv48 sv48
  · exact equal .sv57 sv57

/-- Every other encoding is illegal. -/
theorem ModeValue.ofRaw_unlisted {value : BitVec 8} (unlisted : value.toNat ∉ [0, 8, 9, 10]) :
    ofRaw value = none := by
  -- A value that is compared equal would be listed.
  have other (mode : ModeValue) : value ≠ mode.raw := by
    intro same
    rw [same] at unlisted
    cases mode <;> exact unlisted (by decide)
  have bare : value ≠ 0 := other .bare
  have sv39 : value ≠ 8 := other .sv39
  have sv48 : value ≠ 9 := other .sv48
  have sv57 : value ≠ 10 := other .sv57
  rw [ofRaw, if_neg bare, if_neg sv39, if_neg sv48, if_neg sv57]

/-- The mode field of a raw value is its upper four bits. -/
theorem toNat_modeField (value : RawValue) :
    ((getBitField 63 60 value).setWidth 8).toNat = value.toNat / 2 ^ 60 := by
  -- The quotient of a word by 2 ^ 60 has four bits.
  have bound := value.isLt
  rw [BitVec.toNat_setWidth, toNat_rawField _ (by omega) (by omega)]
  omega

/-- Unpacking keeps a legal mode and replaces any other by zero. -/
theorem SATP64.raw_setValue (value : RawValue) :
    (SATP64.setValue value).mode.raw =
      if value.toNat / 2 ^ 60 ∈ [0, 8, 9, 10] then (getBitField 63 60 value).setWidth 8 else 0 := by
  rw [← toNat_modeField]
  -- The constructor of the mode tests for the same four encodings.
  by_cases listed : ((getBitField 63 60 value).setWidth 8).toNat ∈ [0, 8, 9, 10]
  · rcases ModeValue.ofRaw_listed listed with ⟨mode, legal, same⟩
    rw [if_pos listed]
    simp only [SATP64.setValue, legal]
    exact same
  · rw [if_neg listed]
    simp only [SATP64.setValue, ModeValue.ofRaw_unlisted listed]
    rfl

/-- A bit of a constant mask. -/
theorem getLsbD_lowMask {i : Nat} (bound : i < 64) :
    (0x0fffffffffffffff : BitVec 64).getLsbD i = decide (i < 60) := by
  -- The width is small enough to look at every bit.
  have all : ∀ i < 64, (0x0fffffffffffffff : BitVec 64).getLsbD i = decide (i < 60) := by decide
  exact all i bound

/-- Reading SATP back gives the legal part of what was written. -/
theorem SATP64.getValue_setValue (value : RawValue) :
    (SATP64.setValue value).getValue = legalSatp value := by
  apply BitVec.eq_of_getLsbD_eq
  intro i bound
  rw [getLsbD_getValue _ bound, legalSatp]
  by_cases low : i < 44
  · -- The page number is kept.
    have ppn := getLsbD_rawField value (show 0 ≤ 43 by omega) (by omega) i
    simp only [setValue, low, if_true, ppn]
    split
    · simp
    · rw [BitVec.getLsbD_and, getLsbD_lowMask bound]
      simp [show i < 60 by omega]
  · by_cases middle : i < 60
    · -- The address space identifier is kept.
      have asid := getLsbD_rawField value (show 44 ≤ 59 by omega) (by omega) (i - 44)
      simp only [setValue, low, middle, if_true, if_false, BitVec.getLsbD_setWidth, asid,
        show 44 + (i - 44) = i by omega]
      split
      · simp [show i - 44 < 16 by omega]
      · rw [BitVec.getLsbD_and, getLsbD_lowMask bound]
        simp [middle, show i - 44 < 16 by omega]
    · -- The mode is kept when it is legal.
      have mode := getLsbD_rawField value (show 60 ≤ 63 by omega) (by omega) (i - 60)
      simp only [low, middle, if_false, raw_setValue]
      split
      · rw [BitVec.getLsbD_setWidth, mode, show 60 + (i - 60) = i by omega]
        simp [show i - 60 < 8 by omega, show i - 60 < 4 by omega]
      · rw [BitVec.getLsbD_and, getLsbD_lowMask bound]
        simp [middle]

/-- A bit of a constant mask. -/
theorem getLsbD_flagMask {i : Nat} (bound : i < 64) :
    (0x00000000000c0000 : BitVec 64).getLsbD i = decide (i = 18 ∨ i = 19) := by
  -- The width is small enough to look at every bit.
  have all : ∀ i < 64, (0x00000000000c0000 : BitVec 64).getLsbD i = decide (i = 18 ∨ i = 19) := by
    decide
  exact all i bound

/-- Reading MSTATUS back gives the two flags of what was written. -/
theorem MSTATUS64.getValue_setValue (value : RawValue) :
    (MSTATUS64.setValue value).getValue = legalMstatus value := by
  apply BitVec.eq_of_getLsbD_eq
  intro i bound
  rw [getLsbD_getValue _ bound, legalMstatus, BitVec.getLsbD_and, getLsbD_flagMask bound]
  have sum := getLsbD_rawField value (show 18 ≤ 18 by omega) (by omega) 0
  have mxr := getLsbD_rawField value (show 19 ≤ 19 by omega) (by omega) 0
  simp only [setValue, BitVec.getLsbD_setWidth, sum, mxr]
  -- Either flag is cut from its bit and packed there again.
  by_cases first : i = 18
  · simp [first]
  · by_cases second : i = 19
    · simp [second]
    · simp [first, second]

namespace CSRFile

/-- The file after some calls of `write`, the newest first. -/
def replay : List (CSRIdx × RawValue) → CSRFile
  | [] => {}
  | (idx, value) :: earlier => ((replay earlier).write idx value).2

/-- The last value that was written under an index, zero if there is none. -/
def lastWritten (idx : CSRIdx) : List (CSRIdx × RawValue) → RawValue
  | [] => 0
  | (written, value) :: earlier => if written = idx then value else lastWritten idx earlier

/-- Each register holds what was last written to it. -/
theorem replay_eq (writes : List (CSRIdx × RawValue)) :
    replay writes =
      ⟨SATP64.setValue (lastWritten CSRIdx.satp writes),
        MSTATUS64.setValue (lastWritten CSRIdx.mstatus writes)⟩ := by
  -- Each write either replaces one of the registers or is refused.
  induction writes with
  | nil => rfl
  | cons call earlier ih =>
    rcases call with ⟨idx, value⟩
    rw [replay, ih, write, lastWritten, lastWritten]
    by_cases satp : idx = CSRIdx.satp
    · -- The two registers have different indices.
      have other : ¬idx = CSRIdx.mstatus := by
        rw [satp]
        decide
      rw [if_pos satp, if_pos satp, if_neg other]
      rfl
    · by_cases mstatus : idx = CSRIdx.mstatus
      · rw [if_neg satp, if_pos mstatus, if_neg satp, if_pos mstatus]
        rfl
      · rw [if_neg satp, if_neg mstatus, if_neg satp, if_neg mstatus]

/-- What reads and writes promise about a file that was written to. -/
structure ReadWriteLaw (writes : List (CSRIdx × RawValue)) : Prop where
  readSatp : ∀ dst, (replay writes).read CSRIdx.satp dst =
    (.ok, legalSatp (lastWritten CSRIdx.satp writes))
  readMstatus : ∀ dst, (replay writes).read CSRIdx.mstatus dst =
    (.ok, legalMstatus (lastWritten CSRIdx.mstatus writes))
  /-- A write to one register keeps the other. -/
  keepsMstatus : ∀ value,
    ((replay writes).write CSRIdx.satp value).2.mstatus64 = (replay writes).mstatus64
  keepsSatp : ∀ value,
    ((replay writes).write CSRIdx.mstatus value).2.satp64 = (replay writes).satp64
  /-- Any other register is refused. -/
  unsupported : ∀ idx, idx ≠ CSRIdx.satp → idx ≠ CSRIdx.mstatus → ∀ value dst,
    (replay writes).read idx dst = (.csrNotSupported, dst) ∧
      (replay writes).write idx value = (.csrNotSupported, replay writes)
  /-- Writing back what was read changes nothing. -/
  writeBack : ∀ idx dst,
    ((replay writes).write idx ((replay writes).read idx dst).2).2 = replay writes

/-- The file keeps its promise after every history of writes. -/
theorem readWriteLaw (writes : List (CSRIdx × RawValue)) : ReadWriteLaw writes := by
  have mstatusOther : ¬CSRIdx.mstatus = CSRIdx.satp := by decide
  have file := replay_eq writes
  refine
    { readSatp := ?_
      readMstatus := ?_
      keepsMstatus := fun value => rfl
      keepsSatp := fun value => rfl
      unsupported := ?_
      writeBack := ?_ }
  · intro dst
    -- The register is what was last written to it, and its getter packs that again.
    rw [read, if_pos rfl, file, SATP64.getValue_setValue]
  · intro dst
    rw [read, if_neg mstatusOther, if_pos rfl, file, MSTATUS64.getValue_setValue]
  · intro idx satp mstatus value dst
    -- An index that belongs to neither register leaves both alone.
    rw [read, write, if_neg satp, if_neg mstatus, if_neg satp, if_neg mstatus]
    exact ⟨rfl, rfl⟩
  · intro idx dst
    -- What a raw write left is narrow, so that packing loses nothing.
    have satp64 := (replay writes).satp64.setValue_getValue_iff.2 (by
      rw [file]
      exact SATP64.narrow_setValue _)
    have mstatus64 := (replay writes).mstatus64.setValue_getValue_iff.2 (by
      rw [file]
      exact MSTATUS64.narrow_setValue _)
    rw [read, write]
    by_cases satp : idx = CSRIdx.satp
    · rw [if_pos satp, if_pos satp, setSatp64, satp64]
    · by_cases mstatus : idx = CSRIdx.mstatus
      · rw [if_neg satp, if_pos mstatus, if_neg satp, if_pos mstatus, setMstatus64, mstatus64]
      · -- A refused read gives the destination back, and the write is refused as well.
        rw [if_neg satp, if_neg mstatus]

end CSRFile

end RiscvSim

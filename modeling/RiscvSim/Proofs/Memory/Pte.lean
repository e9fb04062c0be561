import RiscvSim.Memory.SimpleMapper

/-! What a created page table entry reads back as. -/

namespace RiscvSim

/-- Bits of a created entry are page number bits inside the field and flag bits outside. -/
theorem getLsbD_createPTE (ppn : PPN) (flags : PTEFlags) (i : Nat) :
    (createPTE ppn flags).getLsbD i =
      if 10 ≤ i ∧ i ≤ 53 then ppn.getLsbD (i - 10) else flags.raw.getLsbD i := by
  -- The field has room for the low 44 bits, and the rest of the entry is the flags'.
  rw [createPTE, getLsbD_setBitField _ _ (by decide) (by decide)]
  by_cases inside : 10 ≤ i ∧ i ≤ 53
  · rw [if_pos inside, if_pos (by exact inside)]
    rfl
  · rw [if_neg inside, if_neg (by exact inside), BitVec.getLsbD_setWidth]
    by_cases bound : i < 64
    · simp [bound]
    · simp [bound, BitVec.getLsbD_of_ge flags.raw i (by omega)]

/-- The flags of a created entry are those it was created with. -/
@[simp] theorem ofPTE_createPTE (ppn : PPN) (flags : PTEFlags) :
    PTEFlags.ofPTE (createPTE ppn flags) = flags := by
  -- The low byte lies below the page number field.
  obtain ⟨raw⟩ := flags
  simp only [PTEFlags.ofPTE, PTEFlags.mk.injEq]
  ext i bound
  rw [BitVec.getElem_setWidth, getLsbD_createPTE, if_neg (by omega),
    BitVec.getLsbD_eq_getElem]

/-- The page number of a created entry is that it was created with, when it fits in the field. -/
theorem ptePpn_createPTE {ppn : PPN} (flags : PTEFlags) (small : ppn.toNat < 2 ^ 44) :
    ptePpn (createPTE ppn flags) = ppn := by
  -- The field is read from the bits that it was written to.
  rw [ptePpn, getBitField_eq_extractLsb _ (by decide) (by decide) (by decide)]
  apply BitVec.eq_of_getLsbD_eq
  intro i bound
  rw [BitVec.getLsbD_setWidth, BitVec.getLsbD_extractLsb', getLsbD_createPTE]
  have length : ptePpnHi - ptePpnLo + 1 = 44 := rfl
  have low : ptePpnLo = 10 := rfl
  by_cases inside : i < 44
  · rw [if_pos (by omega), show ptePpnLo + i - 10 = i by omega]
    simp [bound, length, inside]
  · -- Above the field, a page number that fits has no bits.
    have clear : ppn.getLsbD i = false := by
      apply Nat.testBit_lt_two_pow
      exact Nat.lt_of_lt_of_le small (Nat.pow_le_pow_right (by omega) (by omega))
    simp [clear, length, inside]

/-- The reserved bits are the two software bits and the ten top bits. -/
theorem getLsbD_pteReservedMask (i : Nat) :
    pteReservedMask.getLsbD i = decide ((i = 8 ∨ i = 9) ∨ 54 ≤ i ∧ i < 64) := by
  -- Both parts are runs of ones, moved to their places.
  rw [pteReservedMask, show 0x3FF#64 = Bits.lowMask 64 10 from rfl,
    show 3#64 = Bits.lowMask 64 2 from rfl]
  simp only [BitVec.getLsbD_or, BitVec.getLsbD_shiftLeft, Bits.getLsbD_lowMask]
  grind

/-- A created entry has no reserved bit. -/
@[simp] theorem createPTE_reserved (ppn : PPN) (flags : PTEFlags) :
    createPTE ppn flags &&& pteReservedMask = 0 := by
  apply BitVec.eq_of_getLsbD_eq
  intro i bound
  rw [BitVec.getLsbD_and, getLsbD_createPTE, getLsbD_pteReservedMask]
  -- Reserved bits lie outside the field, where only the low eight bits can be set.
  by_cases reserved : (i = 8 ∨ i = 9) ∨ 54 ≤ i ∧ i < 64
  · rw [if_neg (by omega), BitVec.getLsbD_of_ge flags.raw i (by omega)]
    simp
  · simp [reserved]

/-- A created entry is malformed exactly when its flags are. -/
@[simp] theorem pteMalformed_createPTE (ppn : PPN) (flags : PTEFlags) :
    pteMalformed (createPTE ppn flags) = (!flags.v || (!flags.r && flags.w)) := by
  -- No reserved bit is set, so that only the flags are left to look at.
  simp [pteMalformed]

/-- A created entry is a leaf exactly when its flags say so. -/
@[simp] theorem pteIsLeaf_createPTE (ppn : PPN) (flags : PTEFlags) :
    pteIsLeaf (createPTE ppn flags) = (flags.r || flags.x) := by
  simp [pteIsLeaf]

/-- The zero entry is not valid. -/
@[simp] theorem ofPTE_zero_v : (PTEFlags.ofPTE 0#64).v = false := by decide

/-- The zero entry is malformed. -/
@[simp] theorem pteMalformed_zero : pteMalformed 0#64 = true := by decide

/-- The flags of a link to the next table are valid and of no leaf. -/
@[simp] theorem linkFlags :
    (PTEFlags.mk PTEFlags.vMask).v = true ∧ (PTEFlags.mk PTEFlags.vMask).r = false ∧
      (PTEFlags.mk PTEFlags.vMask).w = false ∧ (PTEFlags.mk PTEFlags.vMask).x = false := by
  decide

/-- A mapping is valid, accessed and dirty. -/
theorem MemoryMapping.default_flags (mapping : MemoryMapping) :
    mapping.flags.v = true ∧ mapping.flags.a = true ∧ mapping.flags.d = true := by
  obtain ⟨⟨raw⟩, vpn, ppn, flagged⟩ := mapping
  -- Each flag is one bit of the byte, so the finitely many bytes decide it.
  revert raw
  simp only
  decide +kernel

/-- A new mapping keeps the permissions it was asked for. -/
theorem MemoryMapping.new_flags (flags : PTEFlags) (vpn : VPN) (ppn : PPN) :
    (new flags vpn ppn).flags.r = flags.r ∧ (new flags vpn ppn).flags.w = flags.w ∧
      (new flags vpn ppn).flags.x = flags.x ∧ (new flags vpn ppn).flags.u = flags.u := by
  obtain ⟨raw⟩ := flags
  -- The default flags are other bits than the permissions.
  revert raw
  simp only [new]
  decide +kernel

end RiscvSim

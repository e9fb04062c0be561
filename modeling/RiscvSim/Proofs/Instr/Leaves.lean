import RiscvSim.Instr.Decode

/-! The tests on the way to each leaf, compared with the bits that each instruction fixes. -/

namespace RiscvSim

/-- The bits that an instruction fixes. -/
def InstrDescr.pattern (descr : InstrDescr) : Pattern 32 := ⟨descr.fixedmask, descr.fixedvalue⟩

/-- A word has the bits that an instruction fixes. -/
def InstrDescr.Encodes (descr : InstrDescr) (instrCode : InstrCode) : Prop :=
  instrCode &&& descr.fixedmask = descr.fixedvalue

instance (descr : InstrDescr) (instrCode : InstrCode) : Decidable (descr.Encodes instrCode) :=
  inferInstanceAs (Decidable (_ = _))

/-- Later cases of the switches exclude the earlier ones. -/
theorem decodertree_wellFormed : decodertree.wellFormed 32 = true := by decide +kernel

/-- No two instructions are described under one identifier. -/
theorem instructions_nodup : (instructions.map InstrDescr.id).Nodup := by decide +kernel

/-- A leaf of the decoder tree that is reached without testing every bit its instruction fixes. -/
structure LaxLeaf where
  id : InstrId
  /-- The bits tested on the way to the leaf. -/
  tested : Pattern 32
  /-- The fixed bits that are left untested. -/
  untested : Pattern 32
  deriving DecidableEq, Repr

/-- The leaves that are reached too early. -/
def laxLeaves : List LaxLeaf := [
  ⟨.jalr, ⟨0x7f, 0x67⟩, ⟨0x7000, 0x0⟩⟩,
  ⟨.slli, ⟨0x707f, 0x1013⟩, ⟨0xfc000000, 0x0⟩⟩,
  ⟨.slliw, ⟨0x707f, 0x101b⟩, ⟨0xfe000000, 0x0⟩⟩,
  ⟨.ecall, ⟨0xfffff07f, 0x73⟩, ⟨0xf80, 0x0⟩⟩,
  ⟨.ebreak, ⟨0xfffff07f, 0x100073⟩, ⟨0xf80, 0x0⟩⟩,
  ⟨.uret, ⟨0xfffff07f, 0x200073⟩, ⟨0xf80, 0x0⟩⟩,
  ⟨.sret, ⟨0xfffff07f, 0x10200073⟩, ⟨0xf80, 0x0⟩⟩,
  ⟨.wfi, ⟨0xfffff07f, 0x10500073⟩, ⟨0xf80, 0x0⟩⟩,
  ⟨.mret, ⟨0xfe00707f, 0x30000073⟩, ⟨0x1ff8f80, 0x200000⟩⟩,
  ⟨.dret, ⟨0xfe00707f, 0x7a000073⟩, ⟨0x1ff8f80, 0x1200000⟩⟩,
  ⟨.sfenceVma, ⟨0xfe00707f, 0x12000073⟩, ⟨0xf80, 0x0⟩⟩,
  ⟨.hfenceVvma, ⟨0xfe00707f, 0x22000073⟩, ⟨0xf80, 0x0⟩⟩,
  ⟨.hfenceGvma, ⟨0xfe00707f, 0x62000073⟩, ⟨0xf80, 0x0⟩⟩,
  ⟨.fsqrtS, ⟨0xfe00007f, 0x58000053⟩, ⟨0x1f00000, 0x0⟩⟩,
  ⟨.fsqrtD, ⟨0xfe00007f, 0x5a000053⟩, ⟨0x1f00000, 0x0⟩⟩,
  ⟨.fsqrtQ, ⟨0xfe00007f, 0x5e000053⟩, ⟨0x1f00000, 0x0⟩⟩,
  ⟨.fmvWX, ⟨0xfe00007f, 0xf0000053⟩, ⟨0x1f07000, 0x0⟩⟩,
  ⟨.fmvDX, ⟨0xfe00007f, 0xf2000053⟩, ⟨0x1f07000, 0x0⟩⟩,
  ⟨.fmvQX, ⟨0xfe00007f, 0xf6000053⟩, ⟨0x1f07000, 0x0⟩⟩]

/-- Every leaf names a described instruction and, unless it is lax, tests every bit it fixes. -/
theorem leaf_described : ∀ path ∈ decodertree.paths 32, ∃ descr ∈ instructions,
    descr.id = path.2 ∧ ((Pattern.merge path.1).implies descr.pattern = true ∨
      ∃ lax ∈ laxLeaves, (Pattern.merge path.1).implies lax.tested = true ∧
        (Pattern.merge [lax.tested, lax.untested]).implies descr.pattern = true) := by
  decide +kernel

/-- The tested bits of a lax leaf lead to it, and its instruction fixes the untested ones. -/
theorem lax_reached : ∀ lax ∈ laxLeaves,
    (∃ path ∈ decodertree.paths 32, path.2 = lax.id ∧
      ∀ test ∈ path.1, lax.tested.implies test = true) ∧
    ∀ descr ∈ instructions, descr.id = lax.id → descr.pattern.implies lax.untested = true := by
  decide +kernel

/-- Every described instruction has a leaf, and it fixes every bit tested on the way. -/
theorem described_reached : ∀ descr ∈ instructions, ∃ path ∈ decodertree.paths 32,
    path.2 = descr.id ∧ ∀ test ∈ path.1, descr.pattern.implies test = true := by
  decide +kernel

/-- No described instruction is a status. -/
theorem described_ne_status : ∀ descr ∈ instructions, descr.id ≠ .simStatusInstr := by
  decide +kernel

end RiscvSim

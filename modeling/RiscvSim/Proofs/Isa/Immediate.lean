import RiscvSim.Proofs.Isa.Access
import RiscvSim.Proofs.Isa.Transfer

/-! Immediates from the instruction word to the handler: all but one are extended by their sign. -/

namespace RiscvSim

open Rv64i

/-- The instruction that a word holds in the format of an identifier with a signed immediate. -/
inductive HoldsImmediate (word : InstrCode) : InstrId → Instruction → Prop
  | immOp (op : ImmOp) :
    HoldsImmediate word (.ofImmOp op)
      (.compute (fieldRd word) (.imm op (fieldRs1 word) (immI word)))
  | lui : HoldsImmediate word .lui (.compute (fieldRd word) (.lui (immU word)))
  | auipc : HoldsImmediate word .auipc (.auipc (fieldRd word) (immU word))
  | load (load : Load) :
    HoldsImmediate word (.ofLoad load) (.load load (fieldRd word) (fieldRs1 word) (immI word))
  | store (store : Store) :
    HoldsImmediate word (.ofStore store) (.store store (fieldRs1 word) (fieldRs2 word) (immS word))
  | jal : HoldsImmediate word .jal (.transfer (.jal (fieldRd word) (immJ word)))
  | jalr : HoldsImmediate word .jalr (.transfer (.jalr (fieldRd word) (fieldRs1 word) (immI word)))
  | branch (cond : Condition) :
    HoldsImmediate word (.ofCondition cond)
      (.transfer (.branch cond (fieldRs1 word) (fieldRs2 word) (immB word)))

/-- An implemented instruction that lists given fields. -/
def ListsFields (id : InstrId) (fields : List Field) : Prop :=
  id ∈ implementedInstrs ∧ Instr.fieldsOf id = fields

instance (id : InstrId) (fields : List Field) : Decidable (ListsFields id fields) :=
  inferInstanceAs (Decidable (_ ∧ _))

section formats

variable {word : InstrCode} {id : InstrId} (decoded : (Instr.decode word).id = id)

include decoded

/-- A word decodes to the operands of the fields that its instruction lists. -/
theorem operands_of_fields {fields : List Field} (listed : ListsFields id fields) :
    ∃ descr, descr.fields = fields ∧ DecodesTo descr word (Instr.decode word) := by
  -- The instruction is described, and its fields are found by its identifier.
  obtain ⟨descr, member, same⟩ := implementedInstrs_described id listed.1
  refine ⟨descr, ?_, decodesTo_of_id member (decoded.trans same.symm)⟩
  rw [← fieldsOf_described member, same, listed.2]

/-- The operands of a destination, a source and an immediate. -/
theorem operands_immI (listed : ListsFields id [.rd, .rs1, .imm12]) :
    (Instr.decode word).rd = (fieldRd word).setWidth 8 ∧
      (Instr.decode word).rs1 = (fieldRs1 word).setWidth 8 ∧
      (Instr.decode word).imm = (immI word).signExtend 32 := by
  obtain ⟨descr, fields, operands⟩ := operands_of_fields decoded listed
  exact ⟨operands.rd (by simp [fields]), operands.rs1 (by simp [fields]),
    operands.imm .imm12 (by simp [fields]) _ rfl⟩

/-- The operands of a destination and an upper immediate. -/
theorem operands_immU (listed : ListsFields id [.rd, .imm20]) :
    (Instr.decode word).rd = (fieldRd word).setWidth 8 ∧
      (Instr.decode word).imm = immU word ++ 0#12 := by
  obtain ⟨descr, fields, operands⟩ := operands_of_fields decoded listed
  exact ⟨operands.rd (by simp [fields]), operands.imm .imm20 (by simp [fields]) _ rfl⟩

/-- The operands of two sources and the immediate of a store. -/
theorem operands_immS (listed : ListsFields id [.rs1, .rs2, .storeimm]) :
    (Instr.decode word).rs1 = (fieldRs1 word).setWidth 8 ∧
      (Instr.decode word).rs2 = (fieldRs2 word).setWidth 8 ∧
      (Instr.decode word).imm = (immS word).signExtend 32 := by
  obtain ⟨descr, fields, operands⟩ := operands_of_fields decoded listed
  exact ⟨operands.rs1 (by simp [fields]), operands.rs2 (by simp [fields]),
    operands.imm .storeimm (by simp [fields]) _ rfl⟩

/-- The operands of a destination and the immediate of a direct jump. -/
theorem operands_immJ (listed : ListsFields id [.rd, .jimm20]) :
    (Instr.decode word).rd = (fieldRd word).setWidth 8 ∧
      (Instr.decode word).imm = (immJ word ++ 0#1).signExtend 32 := by
  obtain ⟨descr, fields, operands⟩ := operands_of_fields decoded listed
  exact ⟨operands.rd (by simp [fields]), operands.imm .jimm20 (by simp [fields]) _ rfl⟩

/-- The operands of two sources and the immediate of a branch. -/
theorem operands_immB (listed : ListsFields id [.rs1, .rs2, .bimm]) :
    (Instr.decode word).rs1 = (fieldRs1 word).setWidth 8 ∧
      (Instr.decode word).rs2 = (fieldRs2 word).setWidth 8 ∧
      (Instr.decode word).imm = (immB word ++ 0#1).signExtend 32 := by
  obtain ⟨descr, fields, operands⟩ := operands_of_fields decoded listed
  exact ⟨operands.rs1 (by simp [fields]), operands.rs2 (by simp [fields]),
    operands.imm .bimm (by simp [fields]) _ rfl⟩

/-- A word decodes to the instruction that it holds. -/
theorem represents_of_holds {instruction : Instruction}
    (holds : HoldsImmediate word id instruction) :
    (Instr.decode word).Represents instruction := by
  -- The table lists the fields of each format under its identifiers.
  cases holds with
  | immOp op => exact ⟨decoded, operands_immI decoded (by cases op <;> decide +kernel)⟩
  | lui => exact ⟨decoded, operands_immU decoded (by decide +kernel)⟩
  | auipc => exact ⟨decoded, operands_immU decoded (by decide +kernel)⟩
  | load load => exact ⟨decoded, operands_immI decoded (by cases load <;> decide +kernel)⟩
  | store store => exact ⟨decoded, operands_immS decoded (by cases store <;> decide +kernel)⟩
  | jal => exact ⟨decoded, operands_immJ decoded (by decide +kernel)⟩
  | jalr => exact ⟨decoded, operands_immI decoded (by decide +kernel)⟩
  | branch cond => exact ⟨decoded, operands_immB decoded (by cases cond <;> decide +kernel)⟩

end formats

/-- The value that the handler adds to the program counter is right when the sign is clear. -/
theorem upper_setWidth_iff (imm : BitVec 20) (pc : VirtAddr) :
    (imm ++ 0#12).setWidth 64 + pc = auipcResult pc imm ↔ imm.msb = false := by
  have upper : BitVec.ofInt 64 (imm.toInt * 2 ^ 12) = (imm ++ 0#12).signExtend 64 := by
    rw [BitVec.signExtend, BitVec.toInt_append_zero, Int.mul_comm]
  have sign : (imm ++ 0#12).msb = imm.msb := by rw [BitVec.msb_append]; rfl
  rw [auipcResult, ← add_ofInt, upper, BitVec.add_comm, BitVec.add_right_inj]
  constructor
  · intro same
    -- The highest bit is clear on the left, and it is the sign on the right.
    have top := congrArg BitVec.msb same
    rw [BitVec.msb_signExtend, BitVec.msb_setWidth, sign] at top
    simpa using top.symm
  · intro positive
    rw [BitVec.signExtend_eq_setWidth_of_msb_false (sign.trans positive)]

/-- The value that the handler writes. -/
def auipcRes (core : Core) (instr : Instr) : Except Abort RegValue :=
  return instr.imm.setWidth 64 + core.pc

namespace Simulator

/-- The handler adds the upper immediate without its sign. -/
theorem call_auipc (sim : Simulator) {instr : Instr} {rd : RegIdx} {imm : BitVec 20}
    (decoded : instr.Represents (.auipc rd imm)) :
    call sim instr = .ok (.next,
      sim.retire (sim.regs.write rd ((imm ++ 0#12).setWidth 64 + sim.pc)) (sim.pc + 4)) := by
  obtain ⟨id, dest, value⟩ := decoded
  have computed : auipcRes sim.toCore instr = .ok ((imm ++ 0#12).setWidth 64 + sim.pc) := by
    rw [auipcRes, value]
    rfl
  rw [call, id, show dispatch .auipc = some (.compute auipcRes) from rfl]
  exact simCompute_eq dest computed

/-- What an instruction does, as the instruction set prescribes. -/
def meaning (sim : Simulator) : Instruction → Except Abort (Flow × Simulator)
  | .compute rd computation =>
    .ok (.next, sim.retire (sim.regs.write rd (computation.result sim.regs)) (sim.pc + 4))
  | .auipc rd imm =>
    .ok (.next, sim.retire (sim.regs.write rd (auipcResult sim.pc imm)) (sim.pc + 4))
  | .shiftReg width op rd rs1 rs2 =>
    .ok (.next, sim.retire (sim.regs.write rd
      (shiftRegResult width op (sim.regs.value rs1) (sim.regs.value rs2))) (sim.pc + 4))
  | .load load rd rs1 imm => sim.loaded load rd (sim.regs.value rs1 + imm.signExtend 64)
  | .store store rs1 rs2 imm =>
    sim.stored store (sim.regs.value rs2) (sim.regs.value rs1 + imm.signExtend 64)
  | .transfer transfer => sim.transferred transfer
  | .fence .. => .ok (.next, sim.retire sim.regs (sim.pc + 4))
  | .ecall => .ok (.ret .simExit, sim.retire sim.regs (sim.pc + 4))
  -- A breakpoint has no status of its own.
  | .ebreak => .ok (.ret .simNotImplementedInstr, sim)

/-- The handler adds the right value unless the sign of a value that is kept is set. -/
theorem call_auipc_iff (sim : Simulator) {instr : Instr} {rd : RegIdx} {imm : BitVec 20}
    (decoded : instr.Represents (.auipc rd imm)) :
    call sim instr = sim.meaning (.auipc rd imm) ↔ rd = 0 ∨ imm.msb = false := by
  rw [call_auipc sim decoded, meaning, ← upper_setWidth_iff imm sim.pc, ← Registers.write_inj_iff]
  constructor
  · intro same
    -- The registers are part of the state that is left.
    injection same with same
    exact congrArg (fun outcome : Flow × Simulator => outcome.2.regs) same
  · intro same
    rw [same]

/-- A word with a signed immediate has its meaning unless a program counter is added to it. -/
theorem call_immediate_iff (sim : Simulator) {word : InstrCode} {id : InstrId}
    {instruction : Instruction} (decoded : (Instr.decode word).id = id)
    (holds : HoldsImmediate word id instruction) :
    call sim (Instr.decode word) = sim.meaning instruction ↔
      ¬(id = .auipc ∧ word.msb = true ∧ fieldRd word ≠ 0) := by
  have represents := represents_of_holds decoded holds
  cases holds with
  | auipc =>
    have sign : (immU word).msb = word.msb := by
      rw [immU, BitVec.msb_eq_getLsbD_last, BitVec.msb_eq_getLsbD_last,
        BitVec.getLsbD_extractLsb']
      rfl
    rw [call_auipc_iff sim represents, sign]
    cases word.msb <;> simp [or_iff_not_imp_left]
  -- The other formats are extended by their sign on both ways.
  | immOp op =>
    have other : InstrId.ofImmOp op ≠ .auipc := by cases op <;> decide
    exact iff_of_true (Machine.call_computation sim represents) fun fails => other fails.1
  | lui => exact iff_of_true (Machine.call_computation sim represents) (by simp)
  | load load =>
    have other : InstrId.ofLoad load ≠ .auipc := by cases load <;> decide
    exact iff_of_true (call_load sim represents) fun fails => other fails.1
  | store store =>
    have other : InstrId.ofStore store ≠ .auipc := by cases store <;> decide
    exact iff_of_true (call_store sim represents) fun fails => other fails.1
  | jal => exact iff_of_true (Machine.call_of_transfer sim represents) (by simp)
  | jalr => exact iff_of_true (Machine.call_of_transfer sim represents) (by simp)
  | branch cond =>
    have other : InstrId.ofCondition cond ≠ .auipc := by cases cond <;> decide
    exact iff_of_true (Machine.call_of_transfer sim represents) fun fails => other fails.1

/-- The word of `auipc x1, 0x7ffff` adds an upper immediate that is not negative. -/
theorem call_immediate_auipc :
    call ({} : Simulator) (Instr.decode 0x7ffff097) =
      Simulator.meaning {} (.auipc 1 0x7ffff) :=
  (call_immediate_iff {} (by decide +kernel) (.auipc : HoldsImmediate 0x7ffff097 _ _)).mpr
    (by decide +kernel)

/-- The word of `auipc x1, 0x80000` does not add a negative upper immediate. -/
theorem not_call_immediate_auipc :
    call ({} : Simulator) (Instr.decode 0x80000097) ≠
      Simulator.meaning {} (.auipc 1 0x80000) := by
  have represents : (Instr.decode 0x80000097).Represents (.auipc 1 0x80000) :=
    ⟨by decide +kernel, by decide +kernel, by decide +kernel⟩
  rw [Ne, call_auipc_iff {} represents]
  decide

end Simulator

end RiscvSim

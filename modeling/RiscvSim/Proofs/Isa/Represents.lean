import RiscvSim.Proofs.Isa.Registers

/-! Decoded instructions that stand for instructions of the base set. -/

namespace RiscvSim

open Rv64i

namespace InstrId

/-- The identifier of an operation on two registers. -/
def ofRegOp : RegOp → InstrId
  | .add => .add
  | .sub => .sub
  | .slt => .slt
  | .sltu => .sltu
  | .and => .and
  | .or => .or
  | .xor => .xor
  | .addw => .addw
  | .subw => .subw

/-- The identifier of an operation on a register and an immediate. -/
def ofImmOp : ImmOp → InstrId
  | .addi => .addi
  | .slti => .slti
  | .sltiu => .sltiu
  | .andi => .andi
  | .ori => .ori
  | .xori => .xori
  | .addiw => .addiw

/-- The identifier of a shift by an immediate. -/
def ofShiftImm : ShiftWidth → ShiftOp → InstrId
  | .full, .sll => .slli
  | .full, .srl => .srli
  | .full, .sra => .srai
  | .half, .sll => .slliw
  | .half, .srl => .srliw
  | .half, .sra => .sraiw

/-- The identifier of a shift by a register. -/
def ofShiftReg : ShiftWidth → ShiftOp → InstrId
  | .full, .sll => .sll
  | .full, .srl => .srl
  | .full, .sra => .sra
  | .half, .sll => .sllw
  | .half, .srl => .srlw
  | .half, .sra => .sraw

/-- The identifier of a load. -/
def ofLoad : Load → InstrId
  | .lb => .lb
  | .lh => .lh
  | .lw => .lw
  | .ld => .ld
  | .lbu => .lbu
  | .lhu => .lhu
  | .lwu => .lwu

/-- The identifier of a store. -/
def ofStore : Store → InstrId
  | .sb => .sb
  | .sh => .sh
  | .sw => .sw
  | .sd => .sd

/-- The identifier of a branch. -/
def ofCondition : Condition → InstrId
  | .eq => .beq
  | .ne => .bne
  | .lt => .blt
  | .ge => .bge
  | .ltu => .bltu
  | .geu => .bgeu

end InstrId

namespace Instr

/-- A decoded instruction has the identifier and the operands of an instruction. -/
def Represents (instr : Instr) : Instruction → Prop
  | .compute rd (.reg op rs1 rs2) => instr.id = .ofRegOp op ∧ instr.rd = rd.setWidth 8 ∧
      instr.rs1 = rs1.setWidth 8 ∧ instr.rs2 = rs2.setWidth 8
  | .compute rd (.imm op rs1 imm) => instr.id = .ofImmOp op ∧ instr.rd = rd.setWidth 8 ∧
      instr.rs1 = rs1.setWidth 8 ∧ instr.imm = imm.signExtend 32
  | .compute rd (.shift op rs1 shamt) => instr.id = .ofShiftImm .full op ∧
      instr.rd = rd.setWidth 8 ∧ instr.rs1 = rs1.setWidth 8 ∧ instr.imm = shamt.setWidth 32
  | .compute rd (.shiftw op rs1 shamt) => instr.id = .ofShiftImm .half op ∧
      instr.rd = rd.setWidth 8 ∧ instr.rs1 = rs1.setWidth 8 ∧ instr.imm = shamt.setWidth 32
  -- The decoder keeps upper immediates in the upper bits.
  | .compute rd (.lui imm) => instr.id = .lui ∧ instr.rd = rd.setWidth 8 ∧
      instr.imm = imm ++ 0#12
  | .auipc rd imm => instr.id = .auipc ∧ instr.rd = rd.setWidth 8 ∧ instr.imm = imm ++ 0#12
  | .shiftReg width op rd rs1 rs2 => instr.id = .ofShiftReg width op ∧
      instr.rd = rd.setWidth 8 ∧ instr.rs1 = rs1.setWidth 8 ∧ instr.rs2 = rs2.setWidth 8
  | .load load rd rs1 imm => instr.id = .ofLoad load ∧ instr.rd = rd.setWidth 8 ∧
      instr.rs1 = rs1.setWidth 8 ∧ instr.imm = imm.signExtend 32
  | .store store rs1 rs2 imm => instr.id = .ofStore store ∧ instr.rs1 = rs1.setWidth 8 ∧
      instr.rs2 = rs2.setWidth 8 ∧ instr.imm = imm.signExtend 32
  -- It turns steps of two bytes into bytes.
  | .transfer (.jal rd imm) => instr.id = .jal ∧ instr.rd = rd.setWidth 8 ∧
      instr.imm = (imm ++ 0#1).signExtend 32
  | .transfer (.jalr rd rs1 imm) => instr.id = .jalr ∧ instr.rd = rd.setWidth 8 ∧
      instr.rs1 = rs1.setWidth 8 ∧ instr.imm = imm.signExtend 32
  | .transfer (.branch cond rs1 rs2 imm) => instr.id = .ofCondition cond ∧
      instr.rs1 = rs1.setWidth 8 ∧ instr.rs2 = rs2.setWidth 8 ∧
      instr.imm = (imm ++ 0#1).signExtend 32
  -- It drops the sets of a fence.
  | .fence rd rs1 _ => instr.id = .fence ∧ instr.rd = rd.setWidth 8 ∧ instr.rs1 = rs1.setWidth 8
  | .ecall => instr.id = .ecall
  | .ebreak => instr.id = .ebreak

/-- Extending an immediate in two stages extends it once. -/
theorem signedImm_eq {instr : Instr} {w : Nat} {imm : BitVec w} (narrow : w ≤ 32)
    (decoded : instr.imm = imm.signExtend 32) : instr.signedImm = imm.signExtend 64 := by
  -- The value in between is the same number.
  rw [signedImm, decoded, BitVec.signExtend, BitVec.toInt_signExtend_of_le narrow,
    BitVec.signExtend]

/-- An upper immediate keeps its sign. -/
theorem signedImm_upper {instr : Instr} {imm : BitVec 20} (decoded : instr.imm = imm ++ 0#12) :
    instr.signedImm = BitVec.ofInt 64 (imm.toInt * 2 ^ 12) := by
  -- Twelve zeros below a number multiply it by their power.
  rw [signedImm, decoded, BitVec.signExtend, BitVec.toInt_append_zero, Int.mul_comm]

/-- Steps of two bytes are counted in bytes. -/
theorem signedImm_steps {instr : Instr} {w : Nat} {imm : BitVec w} (narrow : w < 32)
    (decoded : instr.imm = (imm ++ 0#1).signExtend 32) :
    instr.signedImm = BitVec.ofInt 64 (imm.toInt * 2) := by
  rw [signedImm_eq narrow decoded, BitVec.signExtend, BitVec.toInt_append_zero, Int.mul_comm]
  rfl

end Instr

end RiscvSim

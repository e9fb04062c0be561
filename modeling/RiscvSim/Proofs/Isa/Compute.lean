import RiscvSim.Proofs.Isa.Represents
import RiscvSim.Simulator.Plain

/-! Integer computations leave the registers that the instruction set prescribes. -/

namespace RiscvSim

open Rv64i

/-- A word that is made of a sum of numbers is the sum of the words. -/
theorem ofInt_add_toInt {w : Nat} (left right : BitVec w) :
    BitVec.ofInt w (left.toInt + right.toInt) = left + right := by
  rw [BitVec.ofInt_add, BitVec.ofInt_toInt, BitVec.ofInt_toInt]

/-- A word that is made of a difference of numbers is the difference of the words. -/
theorem ofInt_sub_toInt {w : Nat} (left right : BitVec w) :
    BitVec.ofInt w (left.toInt - right.toInt) = left - right := by
  -- Subtraction adds the negated number.
  rw [Int.sub_eq_add_neg, BitVec.ofInt_add, BitVec.ofInt_neg, BitVec.ofInt_toInt,
    BitVec.ofInt_toInt, BitVec.sub_eq_add_neg]

/-- The operation that the handlers compute on two registers. -/
def regOpFun : RegOp → RegValue → RegValue → RegValue
  | .add => fun rs1 rs2 => rs1 + rs2
  | .sub => fun rs1 rs2 => rs1 - rs2
  | .slt => fun rs1 rs2 => SimInstr.ofBool (rs1.slt rs2)
  | .sltu => fun rs1 rs2 => SimInstr.ofBool (rs1.ult rs2)
  | .and => fun rs1 rs2 => rs1 &&& rs2
  | .or => fun rs1 rs2 => rs1 ||| rs2
  | .xor => fun rs1 rs2 => rs1 ^^^ rs2
  | .addw => fun rs1 rs2 => SimInstr.sextWord (rs1 + rs2)
  | .subw => fun rs1 rs2 => SimInstr.sextWord (rs1 - rs2)

/-- The handlers compute what the instruction set prescribes for two words. -/
theorem regOpFun_eq (op : RegOp) (rs1 rs2 : RegValue) : regOpFun op rs1 rs2 = op.result rs1 rs2 := by
  cases op with
  | add => exact (ofInt_add_toInt rs1 rs2).symm
  | sub => exact (ofInt_sub_toInt rs1 rs2).symm
  | slt => simp only [regOpFun, SimInstr.ofBool, RegOp.result, BitVec.slt_iff_toInt_lt]
  | sltu => simp only [regOpFun, SimInstr.ofBool, RegOp.result, BitVec.ult_iff_lt, BitVec.lt_def]
  | and => rfl
  | or => rfl
  | xor => rfl
  | addw =>
    -- Reduction to half a word commutes with addition.
    simp only [regOpFun, SimInstr.sextWord, RegOp.result, signedHalf, ofInt_add_toInt,
      BitVec.setWidth_add _ _ (show 32 ≤ 64 by decide)]
  | subw =>
    simp only [regOpFun, SimInstr.sextWord, RegOp.result, signedHalf, ofInt_sub_toInt,
      BitVec.sub_eq_add_neg, BitVec.setWidth_add _ _ (show 32 ≤ 64 by decide)]
    rw [BitVec.setWidth_neg_of_le (by decide)]

/-- The operation that the handlers compute on a register and an immediate. -/
def immOpHandler : ImmOp → Handler
  | .addiw => SimInstr.addiw
  | op => SimInstr.fromImm (regOpFun op.regOp)

/-- The shift that the handlers apply to a word. -/
def shiftFun {w : Nat} : ShiftOp → BitVec w → Nat → BitVec w
  | .sll => (· <<< ·)
  | .srl => (· >>> ·)
  | .sra => BitVec.sshiftRight

/-- The handlers shift as the instruction set prescribes. -/
theorem shiftFun_eq {w : Nat} (op : ShiftOp) (value : BitVec w) (count : Nat) :
    shiftFun op value count = op.result value count := by
  cases op with
  | sll =>
    -- Zeros that are shifted in multiply the number, and the bits that leave the word are lost.
    apply BitVec.eq_of_toNat_eq
    simp only [shiftFun, ShiftOp.result, BitVec.toNat_shiftLeft, BitVec.toNat_ofNat,
      Nat.shiftLeft_eq]
  | srl =>
    apply BitVec.eq_of_toNat_eq
    simp only [shiftFun, ShiftOp.result, BitVec.toNat_ushiftRight, BitVec.toNat_ofNat,
      Nat.shiftRight_eq_div_pow]
    -- A quotient fits where the number did.
    exact (Nat.mod_eq_of_lt (Nat.lt_of_le_of_lt (Nat.div_le_self _ _) value.isLt)).symm
  | sra =>
    simp only [shiftFun, ShiftOp.result]
    rw [← BitVec.ofInt_toInt (x := value.sshiftRight count), BitVec.toInt_sshiftRight,
      Int.shiftRight_eq_div_pow]
    rfl

/-- The handler of a computation. -/
def computeHandler : Computation → Handler
  | .reg op _ _ => SimInstr.fromRegs (regOpFun op)
  | .imm op _ _ => immOpHandler op
  | .shift op _ _ => SimInstr.shiftImm 64 (shiftFun op)
  | .shiftw op _ _ => SimInstr.shiftImm 32 (shiftFun op)
  | .lui _ => SimInstr.lui

/-- The table gives a computation its handler. -/
theorem dispatch_computation {instr : Instr} {rd : RegIdx} {computation : Computation}
    (decoded : instr.Represents (.compute rd computation)) :
    dispatch instr.id = some (computeHandler computation) := by
  cases computation with
  | reg op rs1 rs2 =>
    rw [decoded.1]
    cases op <;> rfl
  | imm op rs1 imm =>
    rw [decoded.1]
    cases op <;> rfl
  | shift op rs1 shamt =>
    rw [decoded.1]
    cases op <;> rfl
  | shiftw op rs1 shamt =>
    rw [decoded.1]
    cases op <;> rfl
  | lui imm =>
    rw [decoded.1]
    rfl

/-- A shift by less than the width is defined. -/
theorem shiftBy_eq {w : Nat} (op : ShiftOp) (value : BitVec w) {count : Nat} (defined : count < w) :
    shiftBy (shiftFun op) value count = .ok (op.result value count) := by
  -- The guard holds, and what is left is the shift of the instruction set.
  rw [shiftBy, if_pos defined, shiftFun_eq]

/-- An operation on two registers computes its result. -/
theorem fromRegs_result (op : RegOp) (core : Core) {instr : Instr} {rs1 rs2 : RegIdx}
    (first : instr.rs1 = rs1.setWidth 8) (second : instr.rs2 = rs2.setWidth 8) :
    ∃ res, SimInstr.fromRegs (regOpFun op) = .compute res ∧
      res core instr = .ok (op.result (core.regs.value rs1) (core.regs.value rs2)) := by
  refine ⟨_, rfl, ?_⟩
  -- Both registers are read before the operation is applied.
  rw [first, second, Core.read_setWidth, Core.read_setWidth, ← regOpFun_eq]
  rfl

/-- An operation on a register and an immediate computes its result. -/
theorem immOpHandler_result (op : ImmOp) (core : Core) {instr : Instr} {rs1 : RegIdx}
    {imm : BitVec 12} (first : instr.rs1 = rs1.setWidth 8)
    (second : instr.imm = imm.signExtend 32) :
    ∃ res, immOpHandler op = .compute res ∧ res core instr =
      .ok (op.regOp.result (core.regs.value rs1) (imm.signExtend 64)) := by
  have extended := Instr.signedImm_eq (by decide) second
  by_cases halves : op = .addiw
  · subst halves
    refine ⟨_, rfl, ?_⟩
    -- The words are added, so the immediate is the low half of the extended one.
    have low : (imm.signExtend 64).setWidth 32 = instr.imm := by
      rw [second, ← BitVec.signExtend_eq_setWidth_of_le _ (by decide), BitVec.signExtend,
        BitVec.toInt_signExtend_of_le (by decide)]
      rfl
    rw [first, Core.read_setWidth]
    simp only [ImmOp.regOp, RegOp.result, signedHalf, ofInt_add_toInt, low]
    rw [BitVec.add_comm]
    rfl
  · have shape : immOpHandler op = SimInstr.fromImm (regOpFun op.regOp) := by
      cases op with
      | addiw => exact absurd rfl halves
      | _ => rfl
    refine ⟨_, shape, ?_⟩
    rw [first, Core.read_setWidth, extended, ← regOpFun_eq]
    rfl

/-- A shift by an immediate computes its result. -/
theorem shiftImm_result (w : Nat) (op : ShiftOp) (core : Core) {instr : Instr} {rs1 : RegIdx}
    {count : Nat} (first : instr.rs1 = rs1.setWidth 8) (second : instr.imm.toNat = count)
    (defined : count < w) :
    ∃ res, SimInstr.shiftImm w (shiftFun op) = .compute res ∧ res core instr =
      .ok ((op.result ((core.regs.value rs1).setWidth w) count).signExtend 64) := by
  refine ⟨_, rfl, ?_⟩
  rw [first, Core.read_setWidth, second]
  -- The value is read, shifted and extended in turn.
  change (shiftBy _ _ _ >>= fun res => pure (res.signExtend 64)) = _
  rw [shiftBy_eq op _ defined]
  rfl

/-- The handler of a computation computes its result. -/
theorem computeHandler_result (core : Core) {instr : Instr} {rd : RegIdx}
    {computation : Computation} (decoded : instr.Represents (.compute rd computation)) :
    ∃ res, computeHandler computation = .compute res ∧
      res core instr = .ok (computation.result core.regs) := by
  cases computation with
  | reg op rs1 rs2 => exact fromRegs_result op core decoded.2.2.1 decoded.2.2.2
  | imm op rs1 imm => exact immOpHandler_result op core decoded.2.2.1 decoded.2.2.2
  | shift op rs1 shamt =>
    have count : instr.imm.toNat = shamt.toNat := by
      rw [decoded.2.2.2, BitVec.toNat_setWidth_of_le (by decide)]
    have whole := shiftImm_result 64 op core decoded.2.2.1 count shamt.isLt
    rw [BitVec.setWidth_eq, BitVec.signExtend_eq] at whole
    exact whole
  | shiftw op rs1 shamt =>
    have count : instr.imm.toNat = shamt.toNat := by
      rw [decoded.2.2.2, BitVec.toNat_setWidth_of_le (by decide)]
    exact shiftImm_result 32 op core decoded.2.2.1 count shamt.isLt
  | lui imm => exact ⟨_, rfl, congrArg Except.ok (Instr.signedImm_upper decoded.2.2)⟩

/-- Computing a value on any machine writes its register, and the next instruction follows. -/
theorem Machine.simCompute_eq {σ : Type} [Machine σ] {sim : σ}
    {res : Core → Instr → Except Abort RegValue} {instr : Instr} {rd : RegIdx} {value : RegValue}
    (dest : instr.rd = rd.setWidth 8) (computed : res (core sim) instr = .ok value) :
    simCompute res sim instr =
      .ok (.next, retire sim ((core sim).regs.write rd value) ((core sim).pc + 4)) := by
  obtain ⟨written, write, jumped, pc⟩ := (core sim).write_jumpTo rd value ((core sim).pc + 4)
  -- The write keeps the program counter, which then moves to the next instruction.
  have moved : written.incr =
      (core sim).retire ((core sim).regs.write rd value) ((core sim).pc + 4) := by
    rw [Core.incr, pc]
    exact jumped
  have stored : (core sim).write instr.rd value = .ok written := dest ▸ write
  simp only [simCompute, computed, stored, moved]
  rfl

/-- An integer computation leaves the prescribed registers on any machine. -/
theorem Machine.call_computation {σ : Type} [Machine σ] (sim : σ) {instr : Instr} {rd : RegIdx}
    {computation : Computation} (decoded : instr.Represents (.compute rd computation)) :
    call sim instr = .ok (.next, retire sim
      ((core sim).regs.write rd (computation.result (core sim).regs)) ((core sim).pc + 4)) := by
  obtain ⟨res, shape, computed⟩ := computeHandler_result (core sim) decoded
  have dest : instr.rd = rd.setWidth 8 := by
    -- Every computation names its destination first.
    cases computation <;> exact decoded.2.1
  rw [call, dispatch_computation decoded, shape]
  exact Machine.simCompute_eq dest computed

namespace Simulator

/-- Retire an instruction that leaves given registers and goes on at an address. -/
def retire (sim : Simulator) (regs : Registers) (pc : VirtAddr) : Simulator :=
  { sim with toCore := sim.toCore.retire regs pc }

/-- A computed value is written to its register, and the next instruction follows. -/
theorem simCompute_eq {sim : Simulator} {res : Core → Instr → Except Abort RegValue}
    {instr : Instr} {rd : RegIdx} {value : RegValue} (dest : instr.rd = rd.setWidth 8)
    (computed : res sim.toCore instr = .ok value) :
    simCompute res sim instr = .ok (.next, sim.retire (sim.regs.write rd value) (sim.pc + 4)) :=
  Machine.simCompute_eq dest computed

/-- An integer computation leaves exactly the registers that the instruction set prescribes. -/
theorem call_compute (sim : Simulator) {instr : Instr} {rd : RegIdx} {computation : Computation}
    (decoded : instr.Represents (.compute rd computation)) :
    call sim instr = .ok (.next,
      sim.retire (sim.regs.write rd (computation.result sim.regs)) (sim.pc + 4)) := by
  -- The simulator is one of the machines, and its core is what it retires into.
  exact Machine.call_computation sim decoded

/-- Adding minus one to register zero fills a register with ones. -/
theorem call_compute_addi : ∃ after : Simulator,
    call ({} : Simulator) (Instr.decode 0xfff00093) = .ok (.next, after) ∧
      after.regs.value 1 = BitVec.allOnes 64 ∧ after.pc = 4 ∧ after.icount = 1 :=
  ⟨_, @call_compute {} (Instr.decode 0xfff00093) 1 (.imm .addi 0 0xfff)
    ⟨by decide +kernel, by decide +kernel, by decide +kernel, by decide +kernel⟩,
    by decide +kernel, rfl, rfl⟩

end Simulator

end RiscvSim

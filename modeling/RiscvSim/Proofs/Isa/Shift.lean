import RiscvSim.Proofs.Isa.Compute

/-! Shifts by a register, whose count is not reduced to the width of the operand. -/

namespace RiscvSim

open Rv64i

/-- A byte loses no bits when it is masked from below, as it is shifted in a wider type. -/
theorem maskBits_byte {hi : Nat} (inside : hi < 8) (value : BitVec 8) :
    maskBits hi 0 value = value := by
  apply BitVec.eq_of_toNat_eq
  have small := value.isLt
  -- A shift by at most seven places keeps a byte below the width of the wider type.
  have factor : 2 ^ (8 - hi - 1) ≤ 2 ^ 7 := Nat.pow_le_pow_right (by decide) (by omega)
  have room : value.toNat * 2 ^ (8 - hi - 1) < 2 ^ 32 :=
    Nat.lt_of_le_of_lt (Nat.mul_le_mul (Nat.le_of_lt small) factor) (by decide)
  have byte : value.toNat % 2 ^ 32 = value.toNat := Nat.mod_eq_of_lt (by omega)
  have widths : max 8 intWidth = 32 := rfl
  -- So the shift back restores it.
  rw [maskBits, getBitField, widths, BitVec.shiftLeft_zero]
  simp only [BitVec.toNat_setWidth, BitVec.toNat_ushiftRight, BitVec.toNat_shiftLeft,
    Nat.shiftLeft_eq, Nat.shiftRight_eq_div_pow, Nat.add_zero, byte]
  rw [Nat.mod_eq_of_lt room, Nat.mul_div_cancel _ (Nat.two_pow_pos _), Nat.mod_eq_of_lt small]

/-- The highest bit of the mask that the handlers apply to a count. -/
def maskTop : ShiftWidth → Nat
  | .full => 5
  | .half => 4

/-- The count that the handlers give to the shift operator. -/
def shiftCount (width : ShiftWidth) (rs2 : RegValue) : Nat :=
  (maskBits (maskTop width) 0 (rs2.setWidth 8)).toNat

/-- The count is the low byte of the register. -/
theorem shiftCount_eq (width : ShiftWidth) (rs2 : RegValue) :
    shiftCount width rs2 = rs2.toNat % 256 := by
  have inside : maskTop width < 8 := by cases width <;> decide
  rw [shiftCount, maskBits_byte inside, BitVec.toNat_setWidth]

/-- The handler of a shift by a register. -/
def shiftRegHandler (width : ShiftWidth) (op : ShiftOp) : Handler :=
  SimInstr.shiftReg width.bits (maskTop width) (shiftFun op)

/-- The table gives a shift by a register its handler. -/
theorem dispatch_shiftReg (width : ShiftWidth) (op : ShiftOp) :
    dispatch (.ofShiftReg width op) = some (shiftRegHandler width op) := by
  cases width <;> cases op <;> rfl

/-- The handler computes the shift by the low byte of the register. -/
theorem shiftRegHandler_result (width : ShiftWidth) (op : ShiftOp) (core : Core) {instr : Instr}
    {rs1 rs2 : RegIdx} (first : instr.rs1 = rs1.setWidth 8) (second : instr.rs2 = rs2.setWidth 8) :
    ∃ res, shiftRegHandler width op = .compute res ∧ res core instr =
      (shiftBy (shiftFun op) ((core.regs.value rs1).setWidth width.bits)
        (shiftCount width (core.regs.value rs2))).map (·.signExtend 64) := by
  refine ⟨_, rfl, ?_⟩
  -- The count is read before the operand.
  rw [first, second, Core.read_setWidth, Core.read_setWidth]
  change (shiftBy _ _ _ >>= fun res => pure (res.signExtend 64)) = _
  unfold shiftCount
  cases shiftBy (shiftFun op) ((core.regs.value rs1).setWidth width.bits)
    (maskBits (maskTop width) 0 ((core.regs.value rs2).setWidth 8)).toNat <;> rfl

namespace Simulator

/-- A shift by a register does what the instruction set prescribes, by a count that is defined. -/
structure ShiftsByRegister (sim : Simulator) (instr : Instr) (width : ShiftWidth) (op : ShiftOp)
    (rd rs1 rs2 : RegIdx) : Prop where
  /-- The count stays below the width of the operand. -/
  defined : shiftCount width (sim.regs.value rs2) < width.bits
  /-- The count is the value of the register modulo the width. -/
  result : call sim instr = .ok (.next, sim.retire (sim.regs.write rd
    (shiftRegResult width op (sim.regs.value rs1) (sim.regs.value rs2))) (sim.pc + 4))

/-- A shift by a register is right exactly when the low byte of the count is below the width. -/
theorem shiftsByRegister_iff (sim : Simulator) {instr : Instr} {width : ShiftWidth} {op : ShiftOp}
    {rd rs1 rs2 : RegIdx} (decoded : instr.Represents (.shiftReg width op rd rs1 rs2)) :
    sim.ShiftsByRegister instr width op rd rs1 rs2 ↔
      (sim.regs.value rs2).toNat % 256 < width.bits := by
  constructor
  · intro shifts
    have defined := shifts.defined
    rwa [shiftCount_eq] at defined
  · intro small
    have defined : shiftCount width (sim.regs.value rs2) < width.bits := by rwa [shiftCount_eq]
    refine ⟨defined, ?_⟩
    -- Both widths divide the number of bytes, so a small low byte is the whole remainder.
    have count : shiftCount width (sim.regs.value rs2) =
        (sim.regs.value rs2).toNat % width.bits := by
      have divides : width.bits ∣ 256 := by cases width <;> decide
      rw [shiftCount_eq, ← Nat.mod_mod_of_dvd _ divides, Nat.mod_eq_of_lt small]
    obtain ⟨res, shape, computed⟩ :=
      shiftRegHandler_result width op sim.toCore decoded.2.2.1 decoded.2.2.2
    rw [shiftBy_eq op _ defined, count] at computed
    rw [call, decoded.1, dispatch_shiftReg, shape]
    exact simCompute_eq decoded.2.1 computed

/-- A shift whose count has a low byte from the width upwards is undefined. -/
theorem call_shiftReg_undefined (sim : Simulator) {instr : Instr} {width : ShiftWidth}
    {op : ShiftOp} {rd rs1 rs2 : RegIdx} (decoded : instr.Represents (.shiftReg width op rd rs1 rs2))
    (large : width.bits ≤ (sim.regs.value rs2).toNat % 256) :
    call sim instr = .error .undefinedShift := by
  have undefined : ¬shiftCount width (sim.regs.value rs2) < width.bits := by
    rw [shiftCount_eq]
    exact Nat.not_lt.mpr large
  obtain ⟨res, shape, computed⟩ :=
    shiftRegHandler_result width op sim.toCore decoded.2.2.1 decoded.2.2.2
  -- The shift operator is applied before the destination is written.
  rw [shiftBy, if_neg undefined] at computed
  rw [call, decoded.1, dispatch_shiftReg, shape]
  simp only [Handler.exec, simCompute]
  rw [show res (Machine.core sim) instr = .error .undefinedShift from computed]

/-- A simulator whose registers are zero but for one. -/
def holdingReg (idx : RegIdx) (word : Word) : Simulator where
  hart := { gprFile := GPRFile.ofRegs (GPRFile.new.regs.write idx word) }

/-- A count of three is below the width. -/
theorem shiftsByRegister_three :
    (holdingReg 2 3).ShiftsByRegister (Instr.decode 0x002190b3) .full .sll 1 3 2 :=
  (shiftsByRegister_iff (holdingReg 2 3)
    ⟨by decide +kernel, by decide +kernel, by decide +kernel, by decide +kernel⟩).mpr
    (by decide +kernel)

/-- A count of the width itself is handed to the shift operator. -/
theorem not_shiftsByRegister_width :
    ¬(holdingReg 2 64).ShiftsByRegister (Instr.decode 0x002190b3) .full .sll 1 3 2 := by
  intro shifts
  have defined := shifts.defined
  revert defined
  decide +kernel

end Simulator

end RiscvSim

import RiscvSim.Proofs.Isa.Compute
import RiscvSim.Proofs.Simulator.Handlers

/-! Jumps and branches go where the instruction set prescribes, or fail without a change. -/

namespace RiscvSim

open Rv64i

/-- Clearing the lowest bit of an address rounds it down to an even one. -/
theorem clear_lowest (address : VirtAddr) :
    address &&& ~~~1 = BitVec.ofNat 64 (address.toNat / 2 * 2) := by
  apply BitVec.eq_of_toNat_eq
  have cleared : (address &&& ~~~1).toNat = address.toNat - address.toNat % 2 :=
    Bits.toNat_and_not_lowMask address 1 (by decide)
  have small := address.isLt
  have fits : address.toNat / 2 * 2 < 2 ^ 64 := by omega
  rw [cleared, BitVec.toNat_ofNat, Nat.mod_eq_of_lt fits]
  omega

/-- An address that is moved by a number is the sum with its word. -/
theorem add_ofInt (address : VirtAddr) (offset : Int) :
    address + BitVec.ofInt 64 offset = BitVec.ofInt 64 (address.toInt + offset) := by
  rw [BitVec.ofInt_add, BitVec.ofInt_toInt]

/-- The comparison that the handlers make on two registers. -/
def condFun : Condition → RegValue → RegValue → Bool
  | .eq => (· == ·)
  | .ne => (· != ·)
  | .lt => BitVec.slt
  | .ge => fun rs1 rs2 => !rs1.slt rs2
  | .ltu => BitVec.ult
  | .geu => fun rs1 rs2 => !rs1.ult rs2

/-- The handlers branch exactly when the condition holds. -/
theorem condFun_iff (cond : Condition) (rs1 rs2 : RegValue) :
    condFun cond rs1 rs2 ↔ cond.Holds rs1 rs2 := by
  cases cond with
  | eq => exact beq_iff_eq
  | ne => exact bne_iff_ne
  | lt => exact BitVec.slt_iff_toInt_lt
  | ge =>
    -- The opposite comparison is negated.
    have strict := BitVec.slt_iff_toInt_lt (x := rs1) (y := rs2)
    simp only [condFun, Condition.Holds, Bool.not_eq_true', ← Bool.not_eq_true, strict]
    omega
  | ltu => exact BitVec.ult_iff_toNat_lt
  | geu =>
    have strict := BitVec.ult_iff_toNat_lt (x := rs1) (y := rs2)
    simp only [condFun, Condition.Holds, Bool.not_eq_true', ← Bool.not_eq_true, strict]
    omega

/-- The table gives a branch the handler that compares by its condition. -/
theorem dispatch_branch (cond : Condition) :
    dispatch (.ofCondition cond) = some (.branch (condFun cond)) := by
  cases cond <;> rfl

/-- The address that a direct jump goes to. -/
def jalPc (core : Core) (instr : Instr) : Except Abort VirtAddr :=
  return core.pc + instr.signedImm

/-- The address that an indirect jump goes to. -/
def jalrPc (core : Core) (instr : Instr) : Except Abort VirtAddr := do
  let rs1 ← core.read instr.rs1
  return (instr.signedImm + rs1) &&& ~~~1

/-- A direct jump goes to its target. -/
theorem jalPc_eq (core : Core) {instr : Instr} {rd : RegIdx} {imm : BitVec 20}
    (decoded : instr.Represents (.transfer (.jal rd imm))) :
    jalPc core instr = .ok ((Transfer.jal rd imm).target core.regs core.pc) := by
  refine congrArg Except.ok ?_
  rw [Instr.signedImm_steps (by decide) decoded.2.2]
  exact add_ofInt _ _

/-- An indirect jump goes to its target. -/
theorem jalrPc_eq (core : Core) {instr : Instr} {rd rs1 : RegIdx} {imm : BitVec 12}
    (decoded : instr.Represents (.transfer (.jalr rd rs1 imm))) :
    jalrPc core instr = .ok ((Transfer.jalr rd rs1 imm).target core.regs core.pc) := by
  obtain ⟨_, _, first, value⟩ := decoded
  have target : (instr.signedImm + core.regs.value rs1) &&& ~~~1 =
      (Transfer.jalr rd rs1 imm).target core.regs core.pc := by
    -- The sum does not depend on the order, and its lowest bit is cleared.
    rw [clear_lowest, Instr.signedImm_eq (by decide) value, BitVec.add_comm]
    exact congrArg (fun sum : Word => BitVec.ofNat 64 (sum.toNat / 2 * 2)) (add_ofInt _ _)
  rw [jalrPc, first, Core.read_setWidth, ← target]
  rfl

/-- A branch goes to its target. -/
theorem branchPc_eq (core : Core) {instr : Instr} {cond : Condition} {rs1 rs2 : RegIdx}
    {imm : BitVec 12} (decoded : instr.Represents (.transfer (.branch cond rs1 rs2 imm))) :
    core.pc + instr.signedImm = (Transfer.branch cond rs1 rs2 imm).target core.regs core.pc := by
  rw [Instr.signedImm_steps (by decide) decoded.2.2.2]
  exact add_ofInt _ _

namespace Machine

variable {σ : Type} [Machine σ]

/-- A jump on any machine links and goes to its target, unless the target is misaligned. -/
theorem simJump_eq {sim : σ} {newPc : Core → Instr → Except Abort VirtAddr} {instr : Instr}
    {rd : RegIdx} {target : VirtAddr} (dest : instr.rd = rd.setWidth 8)
    (computed : newPc (core sim) instr = .ok target) :
    simJump newPc sim instr =
      if target.toNat % 4 ≠ 0 then .ok (.ret .simPcAlignError, sim)
      else .ok (.ret .ok, retire sim ((core sim).regs.write rd ((core sim).pc + 4)) target) := by
  obtain ⟨written, write, jumped, _⟩ := (core sim).write_jumpTo rd ((core sim).pc + 4) target
  have stored : (core sim).write instr.rd ((core sim).pc + 4) = .ok written := dest ▸ write
  -- The target is checked before the link is written.
  simp only [simJump, computed, pcAlignMask_iff, stored]
  by_cases misaligned : target.toNat % 4 ≠ 0
  · rw [if_pos misaligned, if_pos misaligned]
  · rw [if_neg misaligned, if_neg misaligned, jumped]
    rfl

/-- A branch goes to its target when the condition holds, unless the target is misaligned. -/
theorem simCondBranch_eq (sim : σ) {instr : Instr} {cond : Condition} {rs1 rs2 : RegIdx}
    (first : instr.rs1 = rs1.setWidth 8) (second : instr.rs2 = rs2.setWidth 8) :
    simCondBranch (condFun cond) sim instr =
      if cond.Holds ((core sim).regs.value rs1) ((core sim).regs.value rs2) then
        if ((core sim).pc + instr.signedImm).toNat % 4 ≠ 0 then .ok (.ret .simPcAlignError, sim)
        else .ok (.ret .ok, retire sim (core sim).regs ((core sim).pc + instr.signedImm))
      else .ok (.ret .ok, retire sim (core sim).regs ((core sim).pc + 4)) := by
  -- No register is written, so retiring only moves the program counter.
  simp only [simCondBranch, first, second, Core.read_setWidth, condFun_iff, pcAlignMask_iff]
  rfl

/-- What a transfer of control does on any machine, as the instruction set prescribes. -/
def transferred (sim : σ) (transfer : Transfer) : Except Abort (Flow × σ) :=
  if transfer.Misaligned (core sim).regs (core sim).pc then .ok (.ret .simPcAlignError, sim)
  else
    .ok (.ret .ok, retire sim (transfer.link (core sim).regs (core sim).pc)
      (transfer.next (core sim).regs (core sim).pc))

/-- A transfer of control on any machine goes where the instruction set prescribes. -/
theorem call_of_transfer (sim : σ) {instr : Instr} {transfer : Transfer}
    (decoded : instr.Represents (.transfer transfer)) :
    call sim instr = transferred sim transfer := by
  -- A transfer that is taken goes to its target, unless the target is misaligned.
  have taken (holds : transfer.Taken (core sim).regs) : transferred sim transfer =
      if (transfer.target (core sim).regs (core sim).pc).toNat % 4 ≠ 0 then
        .ok (.ret .simPcAlignError, sim)
      else .ok (.ret .ok, retire sim (transfer.link (core sim).regs (core sim).pc)
        (transfer.target (core sim).regs (core sim).pc)) := by
    simp only [transferred, Transfer.Misaligned, holds, true_and, Transfer.next_of_taken _ holds]
  cases transfer with
  | jal rd imm =>
    rw [taken trivial, call, decoded.1, show dispatch .jal = some (.jump jalPc) from rfl]
    exact simJump_eq decoded.2.1 (jalPc_eq _ decoded)
  | jalr rd rs1 imm =>
    rw [taken trivial, call, decoded.1, show dispatch .jalr = some (.jump jalrPc) from rfl]
    exact simJump_eq decoded.2.1 (jalrPc_eq _ decoded)
  | branch cond rs1 rs2 imm =>
    rw [call, decoded.1, dispatch_branch]
    refine (simCondBranch_eq _ decoded.2.1 decoded.2.2.1).trans ?_
    by_cases holds : cond.Holds ((core sim).regs.value rs1) ((core sim).regs.value rs2)
    · rw [taken holds, if_pos holds, branchPc_eq (core sim) decoded]
      rfl
    · -- A branch that is not taken goes on to the next instruction.
      have passed : ¬(Transfer.branch cond rs1 rs2 imm).Taken (core sim).regs := holds
      rw [if_neg holds]
      simp only [transferred, Transfer.Misaligned, passed, false_and, if_false,
        Transfer.next_of_not_taken _ passed]
      rfl

end Machine

namespace Simulator

/-- What a transfer of control does, as the instruction set prescribes. -/
def transferred (sim : Simulator) (transfer : Transfer) : Except Abort (Flow × Simulator) :=
  if transfer.Misaligned sim.regs sim.pc then .ok (.ret .simPcAlignError, sim)
  else
    .ok (.ret .ok, sim.retire (transfer.link sim.regs sim.pc) (transfer.next sim.regs sim.pc))

/-- A transfer of control goes where the instruction set prescribes, or fails without a change. -/
theorem call_transfer (sim : Simulator) {instr : Instr} {transfer : Transfer}
    (decoded : instr.Represents (.transfer transfer)) :
    call sim instr = sim.transferred transfer := by
  -- On a simulator the two ways to state the transfer are the same.
  exact Machine.call_of_transfer sim decoded

/-- A jump over one instruction links to the instruction that it skips. -/
theorem call_transfer_jal : ∃ after : Simulator,
    call ({} : Simulator) (Instr.decode 0x008000ef) = .ok (.ret .ok, after) ∧
      after.pc = 8 ∧ after.regs.value 1 = 4 ∧ after.icount = 1 :=
  ⟨_, (@call_transfer {} (Instr.decode 0x008000ef) (.jal 1 4)
      ⟨by decide +kernel, by decide +kernel, by decide +kernel⟩).trans
      (if_neg (by decide +kernel)),
    by decide +kernel, by decide +kernel, rfl⟩

end Simulator

end RiscvSim

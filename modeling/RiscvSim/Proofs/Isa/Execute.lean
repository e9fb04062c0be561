import RiscvSim.Lib.Rv64iHart
import RiscvSim.Proofs.Isa.Encoding
import RiscvSim.Proofs.Isa.LoadStore
import RiscvSim.Proofs.Isa.Shift
import RiscvSim.Simulator.Flat

/-! An interpreter without tables executes instructions as a hart of the instruction set does. -/

namespace RiscvSim

open Rv64i

/-- The access of the memory management unit for a kind of access. -/
def AccessType.ofAccess : Access → AccessType
  | .fetch => .fetch
  | .load => .read
  | .store => .write

/-- The status for what keeps an instruction from being executed. -/
def SimStatus.ofTrap : Trap SimStatus → SimStatus
  -- A fetch is a load.
  | .misalignedFetch => .simUnalignedLoad
  | .misalignedLoad => .simUnalignedLoad
  | .misalignedStore => .simUnalignedStore
  | .misalignedTarget => .simPcAlignError
  | .illegal => .simNotImplementedInstr
  -- A breakpoint has no status of its own.
  | .breakpoint => .simNotImplementedInstr
  | .fault status => status

/-- The status that a simulation returns for the end of a program. -/
def SimStatus.ofEnding : Ending SimStatus → SimStatus
  | .exit => .ok
  | .trap trap => .ofTrap trap

/-- The status that a handler returns for the end of a program. -/
def SimStatus.returned : Ending SimStatus → SimStatus
  | .exit => .simExit
  | .trap trap => .ofTrap trap

/-- The interpreter goes on with the next entry after an instruction, or returns to the loop. -/
def Flow.after : Instruction → Flow
  | .transfer _ => .ret .ok
  | _ => .next

namespace Flat

variable {w : Nat} (first : Flat w) (hart : Rv64i.Hart w)

/-- The accesses that the memory denies. -/
def denied : Denial w SimStatus := fun access addr => first.denial (.ofAccess access) addr

/-- No access is denied with a status that lets the program go on or ends it well. -/
def Denies : Prop :=
  ∀ accessType addr status, first.denial accessType addr = some status →
    status ≠ .ok ∧ status ≠ .simExit

/-- The interpreter with the registers, the program counter and the memory of a hart. -/
def withHart : Flat w where
  hart := { first.hart with gprFile := GPRFile.ofRegs hart.regs, pc := hart.pc }
  icount := hart.retired
  denial := first.denial
  bytes := hart.memory

/-- The hart of the interpreter. -/
def rv64i : Rv64i.Hart w where
  regs := first.toCore.regs
  pc := first.pc
  retired := first.icount
  memory := first.bytes

/-- An interpreter has its own hart. -/
@[simp] theorem withHart_rv64i : first.withHart first.rv64i = first := rfl

/-- The registers are those of the hart. -/
@[simp] theorem regs_withHart : (Machine.core (first.withHart hart)).regs = hart.regs := rfl

/-- The program counter is that of the hart. -/
@[simp] theorem pc_withHart : (Machine.core (first.withHart hart)).pc = hart.pc := rfl

/-- What is denied or misaligned has a status that stops the program. -/
theorem ofTrap_stops (denies : first.Denies) {kind : Access} {misaligned : Trap SimStatus}
    {n : Nat} {va : VirtAddr} {trap : Trap SimStatus}
    (plain : SimStatus.ofTrap misaligned = .simUnalignedLoad)
    (failed : hart.read first.denied kind misaligned n va = .error trap) :
    SimStatus.ofTrap trap ≠ .ok ∧ SimStatus.ofTrap trap ≠ .simExit := by
  unfold Rv64i.Hart.read at failed
  split at failed
  · cases failed
    rw [plain]
    decide
  · split at failed
    · rename_i denied
      cases failed
      exact denies _ _ _ denied
    · cases failed

/-- A load is one of the hart. -/
theorem load_withHart {n : Nat} (size : AccessSize n) (kind : Access) (misaligned : Trap SimStatus)
    (plain : SimStatus.ofTrap misaligned = .simUnalignedLoad) (va : VirtAddr) :
    (first.withHart hart).load n (.ofAccess kind) va =
      match hart.read first.denied kind misaligned n va with
      | .error trap => ⟨.ofTrap trap, 0⟩
      | .ok value => ⟨.ok, value⟩ := by
  unfold load Rv64i.Hart.read
  by_cases aligned : va.toNat % n = 0
  · rw [if_neg (not_not.mpr ((addrAlignMask_iff size va).mpr aligned)),
      if_neg (not_not.mpr aligned)]
    -- Both sides ask whether the access is denied.
    simp only [denied, withHart]
    cases first.denial (.ofAccess kind) (va.setWidth w) <;> rfl
  · rw [if_pos (mt (addrAlignMask_iff size va).mp aligned), if_pos aligned]
    exact congrArg (fun status => (⟨status, 0⟩ : LoadResult n)) plain.symm

/-- A store is one of the hart. -/
theorem store_withHart {n : Nat} (size : AccessSize n) (va : VirtAddr) (value : BitVec (8 * n)) :
    (first.withHart hart).store n va value =
      match hart.write first.denied n va value with
      | .error trap => (.ofTrap trap, first.withHart hart)
      | .ok after => (.ok, first.withHart after) := by
  unfold store Rv64i.Hart.write
  by_cases aligned : va.toNat % n = 0
  · rw [if_neg (not_not.mpr ((addrAlignMask_iff size va).mpr aligned)),
      if_neg (not_not.mpr aligned)]
    simp only [denied, withHart, AccessType.ofAccess]
    cases first.denial .write (va.setWidth w) <;> rfl
  · rw [if_pos (mt (addrAlignMask_iff size va).mp aligned), if_pos aligned]
    rfl

/-- A store that is refused has a status that stops the program, too. -/
theorem ofTrap_stops_write (denies : first.Denies) {n : Nat} {va : VirtAddr}
    {value : BitVec (8 * n)} {trap : Trap SimStatus}
    (failed : hart.write first.denied n va value = .error trap) :
    SimStatus.ofTrap trap ≠ .ok ∧ SimStatus.ofTrap trap ≠ .simExit := by
  unfold Rv64i.Hart.write at failed
  split at failed
  · cases failed
    decide
  · split at failed
    · rename_i denied
      cases failed
      exact denies _ _ _ denied
    · cases failed

end Flat

/-- The handlers compute what the instruction set prescribes. -/
def Faithful (regs : Registers) : Instruction → Prop
  -- The immediate is widened without its sign, which does not matter to register zero.
  | .auipc rd imm => rd = 0 ∨ imm.msb = false
  -- The count is the low byte of the register, which has to be below the width.
  | .shiftReg width _ _ _ rs2 => (regs.value rs2).toNat % 256 < width.bits
  -- These two have no handler.
  | .fence .. => False
  | .ebreak => False
  | _ => True

instance (regs : Registers) (instruction : Instruction) : Decidable (Faithful regs instruction) :=
  match instruction with
  | .auipc rd imm => inferInstanceAs (Decidable (rd = 0 ∨ imm.msb = false))
  | .shiftReg width _ _ _ rs2 =>
    inferInstanceAs (Decidable ((regs.value rs2).toNat % 256 < width.bits))
  | .compute .. => isTrue trivial
  | .load .. => isTrue trivial
  | .store .. => isTrue trivial
  | .transfer .. => isTrue trivial
  | .fence .. => isFalse id
  | .ecall => isTrue trivial
  | .ebreak => isFalse id

/-- A shift by a register computes its result by a count that is small enough. -/
theorem shiftReg_result (core : Core) {instr : Instr} {width : ShiftWidth} {op : ShiftOp}
    {rd rs1 rs2 : RegIdx} (decoded : instr.Represents (.shiftReg width op rd rs1 rs2))
    (small : (core.regs.value rs2).toNat % 256 < width.bits) :
    ∃ res, shiftRegHandler width op = .compute res ∧ res core instr =
      .ok (shiftRegResult width op (core.regs.value rs1) (core.regs.value rs2)) := by
  obtain ⟨res, shape, computed⟩ :=
    shiftRegHandler_result width op core decoded.2.2.1 decoded.2.2.2
  have divides : width.bits ∣ 256 := by cases width <;> decide
  -- Both widths divide the number of bytes, so a small low byte is the whole remainder.
  have count : shiftCount width (core.regs.value rs2) =
      (core.regs.value rs2).toNat % width.bits := by
    rw [shiftCount_eq, ← Nat.mod_mod_of_dvd _ divides, Nat.mod_eq_of_lt small]
  rw [shiftBy_eq op _ (by rwa [shiftCount_eq]), count] at computed
  exact ⟨res, shape, computed⟩

namespace Flat

variable {w : Nat} (first : Flat w) (hart : Rv64i.Hart w)

/-- What the interpreter makes of an instruction that goes on or ends the program. -/
def executed (instruction : Instruction) :
    Outcome (Rv64i.Hart w) (Ending SimStatus × Rv64i.Hart w) → Except Abort (Flow × Flat w)
  | .next after => .ok (.after instruction, first.withHart after)
  | .stop (ending, last) => .ok (.ret (.returned ending), first.withHart last)

/-- A load is executed as on the hart. -/
theorem call_load {instr : Instr} {load : Load} {rd rs1 : RegIdx} {imm : BitVec 12}
    (denies : first.Denies) (decoded : instr.Represents (.load load rd rs1 imm)) :
    call (first.withHart hart) instr = first.executed (.load load rd rs1 imm)
      (hart.execute first.denied (.load load rd rs1 imm)) := by
  obtain ⟨id, dest, base, value⟩ := decoded
  rw [call, id, dispatch_load]
  simp only [Handler.exec, simLoadInstr, base, Core.read_setWidth,
    Instr.signedImm_eq (by decide) value, Machine.loadInt, regs_withHart, Rv64i.Hart.execute,
    show AccessType.read = .ofAccess .load from rfl,
    first.load_withHart hart (accessSize_load load) .load .misalignedLoad rfl]
  cases read : hart.read first.denied .load .misalignedLoad load.bytes
      (hart.regs.value rs1 + imm.signExtend 64) with
  | error trap =>
    simp only [if_pos (first.ofTrap_stops hart denies rfl read).1]
    rfl
  | ok loaded =>
    -- The destination is written in the state after the access, which is that before.
    obtain ⟨written, write, jumped, pc⟩ :=
      (Machine.core (first.withHart hart)).write_jumpTo rd (load.extend loaded) (hart.pc + 4)
    have moved : written.incr = (Machine.core (first.withHart hart)).retire
        (hart.regs.write rd (load.extend loaded)) (hart.pc + 4) := by
      rw [Core.incr, pc]
      exact jumped
    simp only [dest, write, moved]
    rfl

/-- A store is executed as on the hart. -/
theorem call_store {instr : Instr} {store : Store} {rs1 rs2 : RegIdx} {imm : BitVec 12}
    (denies : first.Denies) (decoded : instr.Represents (.store store rs1 rs2 imm)) :
    call (first.withHart hart) instr = first.executed (.store store rs1 rs2 imm)
      (hart.execute first.denied (.store store rs1 rs2 imm)) := by
  obtain ⟨id, base, source, value⟩ := decoded
  rw [call, id, dispatch_store]
  simp only [Handler.exec, simStoreInstr, base, source, Core.read_setWidth,
    Instr.signedImm_eq (by decide) value, Machine.storeInt, regs_withHart, Rv64i.Hart.execute,
    first.store_withHart hart (accessSize_store store)]
  cases written : hart.write first.denied store.bytes (hart.regs.value rs1 + imm.signExtend 64)
      ((hart.regs.value rs2).setWidth (8 * store.bytes)) with
  | error trap =>
    simp only [if_pos (first.ofTrap_stops_write hart denies written).1]
    rfl
  | ok after => rfl

/-- A transfer of control is executed as on the hart. -/
theorem call_of_transfer {instr : Instr} {transfer : Transfer}
    (decoded : instr.Represents (.transfer transfer)) :
    call (first.withHart hart) instr = first.executed (.transfer transfer)
      (hart.execute first.denied (.transfer transfer)) := by
  rw [Machine.call_of_transfer _ decoded, Machine.transferred, Rv64i.Hart.execute, regs_withHart,
    pc_withHart]
  split <;> rfl

/-- An instruction is executed as on the hart. -/
theorem call_withHart {instr : Instr} {instruction : Instruction} (denies : first.Denies)
    (decoded : instr.Represents instruction) (faithful : Faithful hart.regs instruction) :
    call (first.withHart hart) instr =
      first.executed instruction (hart.execute first.denied instruction) := by
  cases instruction with
  | compute rd computation =>
    exact Machine.call_computation _ decoded
  | auipc rd imm =>
    obtain ⟨id, dest, value⟩ := decoded
    have computed : auipcRes (Machine.core (first.withHart hart)) instr =
        .ok ((imm ++ 0#12).setWidth 64 + hart.pc) := by
      rw [auipcRes, value]
      rfl
    rw [call, id, show dispatch .auipc = some (.compute auipcRes) from rfl]
    refine (Machine.simCompute_eq dest computed).trans ?_
    -- Either the value is right, or it is not kept.
    have same : hart.regs.write rd ((imm ++ 0#12).setWidth 64 + hart.pc) =
        hart.regs.write rd (auipcResult hart.pc imm) :=
      (Registers.write_inj_iff _ _ _ _).mpr (faithful.imp_right (upper_setWidth_iff imm hart.pc).mpr)
    rw [regs_withHart, same]
    rfl
  | shiftReg width op rd rs1 rs2 =>
    obtain ⟨res, shape, computed⟩ :=
      shiftReg_result (Machine.core (first.withHart hart)) decoded faithful
    rw [call, decoded.1, dispatch_shiftReg, shape]
    exact Machine.simCompute_eq decoded.2.1 computed
  | load load rd rs1 imm => exact first.call_load hart denies decoded
  | store store rs1 rs2 imm => exact first.call_store hart denies decoded
  | transfer transfer => exact first.call_of_transfer hart decoded
  | ecall =>
    rw [call, show instr.id = .ecall from decoded, show dispatch .ecall = some .exit from rfl]
    rfl
  | fence => exact faithful.elim
  | ebreak => exact faithful.elim

end Flat

end RiscvSim

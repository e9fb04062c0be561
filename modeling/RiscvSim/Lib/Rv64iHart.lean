import RiscvSim.Lib.ByteStore
import RiscvSim.Lib.Rv64iEncoding
import RiscvSim.Lib.Transition

/-! A hart of the base instruction set RV64I, whose memory is a store of bytes. -/

namespace Rv64i

/-- The kinds of memory access. -/
inductive Access where
  | fetch | load | store
  deriving DecidableEq, Repr

/-- What keeps an instruction from being executed, where the memory has causes of its own. -/
inductive Trap (φ : Type) where
  | misalignedFetch
  | misalignedLoad
  | misalignedStore
  /-- A transfer of control goes where no instruction can start. -/
  | misalignedTarget
  | illegal
  /-- An environment break. -/
  | breakpoint
  | fault (cause : φ)
  deriving DecidableEq, Repr

/-- How a program ends. -/
inductive Ending (φ : Type) where
  /-- By an environment call. -/
  | exit
  | trap (trap : Trap φ)
  deriving DecidableEq, Repr

/-- A hart. -/
structure Hart (w : Nat) where
  regs : Registers
  pc : Word
  /-- The number of retired instructions. -/
  retired : Nat
  memory : ByteStore w

/-- The accesses that the memory denies, each for a cause. -/
abbrev Denial (w : Nat) (φ : Type) := Access → BitVec w → Option φ

/-- The address of the memory access of an instruction. -/
def Instruction.address (regs : Registers) : Instruction → Option Word
  | .load _ _ rs1 imm => some (regs.value rs1 + imm.signExtend 64)
  | .store _ rs1 _ imm => some (regs.value rs1 + imm.signExtend 64)
  | _ => none

namespace Hart

variable {w : Nat} {φ : Type}

/-- Retire an instruction that leaves given registers and goes on at an address. -/
def retire (hart : Hart w) (regs : Registers) (pc : Word) : Hart w :=
  { hart with regs := regs, pc := pc, retired := hart.retired + 1 }

/-- Load `n` bytes, of which the low bits of the address select the first. -/
def read (denial : Denial w φ) (kind : Access) (misaligned : Trap φ) (n : Nat) (hart : Hart w)
    (va : Word) : Except (Trap φ) (BitVec (8 * n)) :=
  if va.toNat % n ≠ 0 then .error misaligned
  else
    match denial kind (va.setWidth w) with
    | some cause => .error (.fault cause)
    | none => .ok (hart.memory.get n (va.setWidth w))

/-- Store `n` bytes. -/
def write (denial : Denial w φ) (n : Nat) (hart : Hart w) (va : Word) (value : BitVec (8 * n)) :
    Except (Trap φ) (Hart w) :=
  if va.toNat % n ≠ 0 then .error .misalignedStore
  else
    match denial .store (va.setWidth w) with
    | some cause => .error (.fault cause)
    | none => .ok { hart with memory := hart.memory.put (va.setWidth w) value }

/-- Execute an instruction, where a trap leaves the state. -/
def execute (denial : Denial w φ) (hart : Hart w) :
    Instruction → Outcome (Hart w) (Ending φ × Hart w)
  | .compute rd computation =>
    .next (hart.retire (hart.regs.write rd (computation.result hart.regs)) (hart.pc + 4))
  | .auipc rd imm =>
    .next (hart.retire (hart.regs.write rd (auipcResult hart.pc imm)) (hart.pc + 4))
  | .shiftReg width op rd rs1 rs2 =>
    .next (hart.retire (hart.regs.write rd
      (shiftRegResult width op (hart.regs.value rs1) (hart.regs.value rs2))) (hart.pc + 4))
  | .load op rd rs1 imm =>
    match hart.read denial .load .misalignedLoad op.bytes
        (hart.regs.value rs1 + imm.signExtend 64) with
    | .error trap => .stop (.trap trap, hart)
    | .ok value => .next (hart.retire (hart.regs.write rd (op.extend value)) (hart.pc + 4))
  | .store op rs1 rs2 imm =>
    match hart.write denial op.bytes (hart.regs.value rs1 + imm.signExtend 64)
        ((hart.regs.value rs2).setWidth (8 * op.bytes)) with
    | .error trap => .stop (.trap trap, hart)
    | .ok hart => .next (hart.retire hart.regs (hart.pc + 4))
  | .transfer transfer =>
    -- A transfer to a misaligned address is not even linked.
    if transfer.Misaligned hart.regs hart.pc then .stop (.trap .misalignedTarget, hart)
    else .next (hart.retire (transfer.link hart.regs hart.pc) (transfer.next hart.regs hart.pc))
  -- A single hart sees its own accesses in order.
  | .fence .. => .next (hart.retire hart.regs (hart.pc + 4))
  | .ecall => .stop (.exit, hart.retire hart.regs (hart.pc + 4))
  | .ebreak => .stop (.trap .breakpoint, hart)

/-- Fetch and execute the instruction at the program counter. -/
def step (denial : Denial w φ) (hart : Hart w) : Outcome (Hart w) (Ending φ × Hart w) :=
  match hart.read denial .fetch .misalignedFetch 4 hart.pc with
  | .error trap => .stop (.trap trap, hart)
  | .ok word =>
    match decode word with
    | none => .stop (.trap .illegal, hart)
    | some instruction => hart.execute denial instruction

end Hart

end Rv64i

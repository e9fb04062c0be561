import Mathlib.Algebra.Group.Nat.Defs
import Mathlib.Algebra.Group.Int.Defs
import Mathlib.Tactic.Common

/-! The base integer instruction set RV64I: what each instruction computes and where it goes on. -/

namespace Rv64i

/-- The contents of a register. -/
abbrev Word := BitVec 64

/-- The number of a register. -/
abbrev RegIdx := BitVec 5

/-- The integer registers. -/
structure Registers where
  value : RegIdx → Word
  /-- Register zero holds zero. -/
  zero : value 0 = 0

namespace Registers

/-- Write a word to a register, where register zero stays as it is. -/
def write (regs : Registers) (rd : RegIdx) (word : Word) : Registers where
  value idx := if idx = 0 then 0 else if idx = rd then word else regs.value idx
  zero := if_pos rfl

/-- Registers are the same when they hold the same words. -/
theorem ext {left right : Registers} (same : ∀ idx, left.value idx = right.value idx) :
    left = right := by
  obtain ⟨left, _⟩ := left
  obtain ⟨right, _⟩ := right
  -- The words decide the registers, as register zero is only promised to hold zero.
  simpa only [mk.injEq] using funext same

/-- Writing register zero changes nothing. -/
@[simp] theorem write_zero (regs : Registers) (word : Word) : regs.write 0 word = regs := by
  apply Registers.ext
  intro idx
  simp only [write]
  -- Register zero reads as zero on both sides, and no other register is written.
  split
  · rename_i zero
    rw [zero, regs.zero]
  · rfl

/-- A register that was written holds the word. -/
theorem write_self (regs : Registers) {rd : RegIdx} (word : Word) (other : rd ≠ 0) :
    (regs.write rd word).value rd = word := by
  -- The destination is not register zero, so the word arrives.
  simp only [write, if_neg other, if_pos]

/-- Writes to one register leave the same registers exactly when nothing or the same is written. -/
theorem write_inj_iff (regs : Registers) (rd : RegIdx) (left right : Word) :
    regs.write rd left = regs.write rd right ↔ rd = 0 ∨ left = right := by
  constructor
  · intro same
    by_cases zero : rd = 0
    · exact .inl zero
    · -- The register that is written holds either word.
      right
      rw [← regs.write_self left zero, same, regs.write_self right zero]
  · intro same
    -- Register zero keeps its zero, and the same word makes the same registers.
    rcases same with zero | same
    · rw [zero, write_zero, write_zero]
    · rw [same]

end Registers

/-- The operations on two registers. -/
inductive RegOp where
  | add | sub | slt | sltu | and | or | xor | addw | subw
  deriving DecidableEq, Repr

/-- A signed number reduced to half a word and extended again. -/
def signedHalf (value : Int) : Word := (BitVec.ofInt 32 value).signExtend 64

/-- The result of an operation on two registers. -/
def RegOp.result : RegOp → Word → Word → Word
  | add, rs1, rs2 => BitVec.ofInt 64 (rs1.toInt + rs2.toInt)
  | sub, rs1, rs2 => BitVec.ofInt 64 (rs1.toInt - rs2.toInt)
  | slt, rs1, rs2 => if rs1.toInt < rs2.toInt then 1 else 0
  | sltu, rs1, rs2 => if rs1.toNat < rs2.toNat then 1 else 0
  | and, rs1, rs2 => rs1 &&& rs2
  | or, rs1, rs2 => rs1 ||| rs2
  | xor, rs1, rs2 => rs1 ^^^ rs2
  -- The operations on halves see the low half of each operand.
  | addw, rs1, rs2 => signedHalf ((rs1.setWidth 32).toInt + (rs2.setWidth 32).toInt)
  | subw, rs1, rs2 => signedHalf ((rs1.setWidth 32).toInt - (rs2.setWidth 32).toInt)

/-- The operations on a register and an immediate. -/
inductive ImmOp where
  | addi | slti | sltiu | andi | ori | xori | addiw
  deriving DecidableEq, Repr

/-- The operation that takes the immediate in place of its second register. -/
def ImmOp.regOp : ImmOp → RegOp
  | addi => .add
  | slti => .slt
  | sltiu => .sltu
  | andi => .and
  | ori => .or
  | xori => .xor
  | addiw => .addw

/-- The shift operations. -/
inductive ShiftOp where
  | sll | srl | sra
  deriving DecidableEq, Repr

/-- The result of a shift, as a product or a quotient that is rounded down. -/
def ShiftOp.result {w : Nat} : ShiftOp → BitVec w → Nat → BitVec w
  | sll, value, count => BitVec.ofNat w (value.toNat * 2 ^ count)
  | srl, value, count => BitVec.ofNat w (value.toNat / 2 ^ count)
  | sra, value, count => BitVec.ofInt w (value.toInt / 2 ^ count)

/-- The part of a register that a shift works on. -/
inductive ShiftWidth where
  | full | half
  deriving DecidableEq, Repr

/-- The number of bits of the part. -/
def ShiftWidth.bits : ShiftWidth → Nat
  | full => 64
  | half => 32

/-- A computation whose result is written to a register. -/
inductive Computation where
  | reg (op : RegOp) (rs1 rs2 : RegIdx)
  | imm (op : ImmOp) (rs1 : RegIdx) (imm : BitVec 12)
  | shift (op : ShiftOp) (rs1 : RegIdx) (shamt : BitVec 6)
  /-- A shift of the low half. -/
  | shiftw (op : ShiftOp) (rs1 : RegIdx) (shamt : BitVec 5)
  | lui (imm : BitVec 20)
  deriving DecidableEq, Repr

/-- The result of a computation. -/
def Computation.result (regs : Registers) : Computation → Word
  | reg op rs1 rs2 => op.result (regs.value rs1) (regs.value rs2)
  | imm op rs1 value => op.regOp.result (regs.value rs1) (value.signExtend 64)
  | shift op rs1 shamt => op.result (regs.value rs1) shamt.toNat
  | shiftw op rs1 shamt => (op.result ((regs.value rs1).setWidth 32) shamt.toNat).signExtend 64
  | lui value => BitVec.ofInt 64 (value.toInt * 2 ^ 12)

/-- The result of adding an upper immediate to the program counter. -/
def auipcResult (pc : Word) (imm : BitVec 20) : Word :=
  BitVec.ofInt 64 (pc.toInt + imm.toInt * 2 ^ 12)

/-- The result of a shift by a register, which counts modulo the width. -/
def shiftRegResult (width : ShiftWidth) (op : ShiftOp) (rs1 rs2 : Word) : Word :=
  (op.result (rs1.setWidth width.bits) (rs2.toNat % width.bits)).signExtend 64

/-- The conditions of branches. -/
inductive Condition where
  | eq | ne | lt | ge | ltu | geu
  deriving DecidableEq, Repr

/-- The condition holds of two registers. -/
def Condition.Holds : Condition → Word → Word → Prop
  | eq, rs1, rs2 => rs1 = rs2
  | ne, rs1, rs2 => rs1 ≠ rs2
  | lt, rs1, rs2 => rs1.toInt < rs2.toInt
  | ge, rs1, rs2 => rs2.toInt ≤ rs1.toInt
  | ltu, rs1, rs2 => rs1.toNat < rs2.toNat
  | geu, rs1, rs2 => rs2.toNat ≤ rs1.toNat

instance (cond : Condition) (rs1 rs2 : Word) : Decidable (cond.Holds rs1 rs2) :=
  match cond with
  | .eq => inferInstanceAs (Decidable (rs1 = rs2))
  | .ne => inferInstanceAs (Decidable (rs1 ≠ rs2))
  | .lt => inferInstanceAs (Decidable (rs1.toInt < rs2.toInt))
  | .ge => inferInstanceAs (Decidable (rs2.toInt ≤ rs1.toInt))
  | .ltu => inferInstanceAs (Decidable (rs1.toNat < rs2.toNat))
  | .geu => inferInstanceAs (Decidable (rs2.toNat ≤ rs1.toNat))

/-- A transfer of control, whose immediates count in steps of two bytes in the first and last. -/
inductive Transfer where
  | jal (rd : RegIdx) (imm : BitVec 20)
  | jalr (rd rs1 : RegIdx) (imm : BitVec 12)
  | branch (cond : Condition) (rs1 rs2 : RegIdx) (imm : BitVec 12)
  deriving DecidableEq, Repr

namespace Transfer

/-- The transfer is taken: jumps always are, and branches when their condition holds. -/
def Taken (regs : Registers) : Transfer → Prop
  | jal .. => True
  | jalr .. => True
  | branch cond rs1 rs2 _ => cond.Holds (regs.value rs1) (regs.value rs2)

instance (regs : Registers) (transfer : Transfer) : Decidable (transfer.Taken regs) :=
  match transfer with
  | .jal .. => isTrue trivial
  | .jalr .. => isTrue trivial
  | .branch cond rs1 rs2 _ =>
    inferInstanceAs (Decidable (cond.Holds (regs.value rs1) (regs.value rs2)))

/-- The address that a transfer goes to when it is taken. -/
def target (regs : Registers) (pc : Word) : Transfer → Word
  | jal _ imm => BitVec.ofInt 64 (pc.toInt + imm.toInt * 2)
  -- The lowest bit of the sum is cleared.
  | jalr _ rs1 imm =>
    let sum := BitVec.ofInt 64 ((regs.value rs1).toInt + imm.toInt)
    BitVec.ofNat 64 (sum.toNat / 2 * 2)
  | branch _ _ _ imm => BitVec.ofInt 64 (pc.toInt + imm.toInt * 2)

/-- The registers after a transfer, which links when it is a jump. -/
def link (regs : Registers) (pc : Word) : Transfer → Registers
  | jal rd _ => regs.write rd (pc + 4)
  | jalr rd _ _ => regs.write rd (pc + 4)
  | branch .. => regs

/-- The transfer is taken to an address where no instruction can start. -/
def Misaligned (regs : Registers) (pc : Word) (transfer : Transfer) : Prop :=
  transfer.Taken regs ∧ (transfer.target regs pc).toNat % 4 ≠ 0

instance (regs : Registers) (pc : Word) (transfer : Transfer) :
    Decidable (transfer.Misaligned regs pc) := inferInstanceAs (Decidable (_ ∧ _))

/-- The address of the next instruction. -/
def next (regs : Registers) (pc : Word) (transfer : Transfer) : Word :=
  if transfer.Taken regs then transfer.target regs pc else pc + 4

/-- A transfer that is taken goes to its target. -/
theorem next_of_taken {regs : Registers} {transfer : Transfer} (pc : Word)
    (taken : transfer.Taken regs) : transfer.next regs pc = transfer.target regs pc :=
  if_pos taken

/-- A transfer that is not taken goes on to the next instruction. -/
theorem next_of_not_taken {regs : Registers} {transfer : Transfer} (pc : Word)
    (passed : ¬transfer.Taken regs) : transfer.next regs pc = pc + 4 :=
  if_neg passed

end Transfer

/-- The loads. -/
inductive Load where
  | lb | lh | lw | ld | lbu | lhu | lwu
  deriving DecidableEq, Repr

namespace Load

/-- The number of bytes that are loaded. -/
def bytes : Load → Nat
  | lb => 1
  | lh => 2
  | lw => 4
  | ld => 8
  | lbu => 1
  | lhu => 2
  | lwu => 4

/-- The loaded value is unsigned. -/
def Unsigned (load : Load) : Prop := load = lbu ∨ load = lhu ∨ load = lwu

instance (load : Load) : Decidable load.Unsigned := inferInstanceAs (Decidable (_ ∨ _))

/-- The word that a loaded value is extended to. -/
def extend (load : Load) (value : BitVec (8 * load.bytes)) : Word :=
  if load.Unsigned then value.setWidth 64 else value.signExtend 64

end Load

/-- The stores. -/
inductive Store where
  | sb | sh | sw | sd
  deriving DecidableEq, Repr

/-- The number of bytes that are stored. -/
def Store.bytes : Store → Nat
  | sb => 1
  | sh => 2
  | sw => 4
  | sd => 8

/-- An instruction with its operands.

The immediate of a fence holds the sets of accesses that it orders, and its registers are reserved.
-/
inductive Instruction where
  | compute (rd : RegIdx) (computation : Computation)
  | auipc (rd : RegIdx) (imm : BitVec 20)
  | shiftReg (width : ShiftWidth) (op : ShiftOp) (rd rs1 rs2 : RegIdx)
  | load (load : Load) (rd rs1 : RegIdx) (imm : BitVec 12)
  | store (store : Store) (rs1 rs2 : RegIdx) (imm : BitVec 12)
  | transfer (transfer : Transfer)
  | fence (rd rs1 : RegIdx) (sets : BitVec 12)
  | ecall
  | ebreak
  deriving DecidableEq, Repr

section formats

variable (word : BitVec 32)

/-- The number of the destination register. -/
def fieldRd : RegIdx := word.extractLsb' 7 5

/-- The number of the first source register. -/
def fieldRs1 : RegIdx := word.extractLsb' 15 5

/-- The number of the second source register. -/
def fieldRs2 : RegIdx := word.extractLsb' 20 5

/-- The immediate of loads, register-immediate operations and indirect jumps. -/
def immI : BitVec 12 := word.extractLsb' 20 12

/-- The immediate of stores. -/
def immS : BitVec 12 := word.extractLsb' 25 7 ++ word.extractLsb' 7 5

/-- The immediate of branches. -/
def immB : BitVec 12 :=
  word.extractLsb' 31 1 ++ word.extractLsb' 7 1 ++ word.extractLsb' 25 6 ++ word.extractLsb' 8 4

/-- The upper immediate. -/
def immU : BitVec 20 := word.extractLsb' 12 20

/-- The immediate of direct jumps. -/
def immJ : BitVec 20 :=
  word.extractLsb' 31 1 ++ word.extractLsb' 12 8 ++ word.extractLsb' 20 1 ++ word.extractLsb' 21 10

end formats

end Rv64i

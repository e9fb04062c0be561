import RiscvSim.Lib.CArith
import RiscvSim.Simulator.SimInstr

/-! The sums that the handlers make, in the types that the source gives their operands. -/

namespace RiscvSim

open CArith

/-- Read a register as a type. -/
def Core.readAs (core : Core) (type : IntType) (idx : BitVec 8) : Except Abort Value :=
  (core.read idx).map fun value => type.cast value.toNat

/-- The program counter, which is unsigned. -/
def Core.pcValue (core : Core) : Value := IntType.ulong.cast core.pc.toNat

/-- The immediate, which is stored without a sign. -/
def Instr.immValue (instr : Instr) : Value := IntType.uint.cast instr.imm.toNat

/-- The immediate as a signed word. -/
def Instr.immInt (instr : Instr) : Value := instr.immValue.convert .int

/-- The value in a register. -/
def valueToReg (value : Value) : RegValue := BitVec.ofInt 64 value.number

namespace Sums

/-- The sums that retire an instruction which goes on at the next one. -/
def incr (core : Core) : List Sum :=
  [⟨.add, IntType.ulong.cast core.icount, IntType.int.cast 1⟩,
    ⟨.add, core.pcValue, IntType.ulong.cast 4⟩]

/-- The sum of a jump's link address, and the one that retires it. -/
def link (core : Core) : List Sum :=
  [⟨.add, core.pcValue, IntType.int.cast 4⟩,
    ⟨.add, IntType.ulong.cast core.icount, IntType.int.cast 1⟩]

/-- A sum of both source registers, read as a type. -/
def fromRegs (op : Op) (type : IntType) (core : Core) (instr : Instr) : Except Abort Sum := do
  let rs1 ← core.readAs type instr.rs1
  let rs2 ← core.readAs type instr.rs2
  return ⟨op, rs1, rs2⟩

/-- The sum of a base register and a signed word. -/
def address (core : Core) (instr : Instr) : Except Abort Sum := do
  let vaBase ← core.readAs .ulong instr.rs1
  return ⟨.add, vaBase, instr.immInt⟩

def add : Core → Instr → Except Abort Sum := fromRegs .add .long
def sub : Core → Instr → Except Abort Sum := fromRegs .sub .long
def addw : Core → Instr → Except Abort Sum := fromRegs .add .int
def subw : Core → Instr → Except Abort Sum := fromRegs .sub .int

/-- The signed word is stored as an unsigned value first. -/
def addi (core : Core) (instr : Instr) : Except Abort Sum := do
  let rs1 ← core.readAs .long instr.rs1
  return ⟨.add, rs1, instr.immInt.convert .ulong⟩

def addiw (core : Core) (instr : Instr) : Except Abort Sum := do
  let rs1 ← core.readAs .uint instr.rs1
  return ⟨.add, instr.immValue, rs1⟩

def auipc (core : Core) (instr : Instr) : Except Abort Sum :=
  return ⟨.add, instr.immValue.convert .long, core.pcValue⟩

def jal (core : Core) (instr : Instr) : Except Abort Sum :=
  return ⟨.add, core.pcValue, instr.immInt.convert .long⟩

def jalr (core : Core) (instr : Instr) : Except Abort Sum := do
  let rs1 ← core.readAs .long instr.rs1
  return ⟨.add, instr.immInt.convert .long, rs1⟩

def condBranch (core : Core) (instr : Instr) : Except Abort Sum :=
  return ⟨.add, core.pcValue, instr.immInt⟩

end Sums

/-- The sum that a handler computes its result, address or target from. -/
def mainSum : InstrId → Option (Core → Instr → Except Abort Sum)
  | .add => some Sums.add
  | .sub => some Sums.sub
  | .addw => some Sums.addw
  | .subw => some Sums.subw
  | .addi => some Sums.addi
  | .addiw => some Sums.addiw
  | .auipc => some Sums.auipc
  | .jal => some Sums.jal
  | .jalr => some Sums.jalr
  | .ld | .lw | .lwu | .lh | .lhu | .lb | .lbu => some Sums.address
  | .sd | .sw | .sh | .sb => some Sums.address
  | .beq | .bne | .blt | .bltu | .bge | .bgeu => some Sums.condBranch
  | _ => none

/-- The other sums that a handler may make, where a branch may or may not be taken. -/
def otherSums (id : InstrId) (core : Core) : List Sum :=
  match id with
  | .jal | .jalr => Sums.link core
  | _ => Sums.incr core

/-- The register value that a handler makes of the result of its sum. -/
def fromSum (id : InstrId) (result : Value) : RegValue :=
  match id with
  -- The unsigned sum is read as a signed word.
  | .addiw => valueToReg (result.convert .int)
  -- The lowest bit of the target is cleared.
  | .jalr => valueToReg result &&& ~~~1
  | _ => valueToReg result

end RiscvSim

import RiscvSim.Hart
import RiscvSim.Instr.Decode

/-! The instruction handlers, over any state that gives them registers and memory. -/

namespace RiscvSim

/-- The part of the state that handlers change without touching memory. -/
structure Core where
  hart : Hart := {}
  /-- The number of retired instructions. -/
  icount : Nat := 0

/-- The result of loading an integer of `n` bytes. -/
structure LoadResult (n : Nat) where
  status : SimStatus := .physMemAccessFault
  value : BitVec (8 * n) := 0

/-- A state that instructions run on. -/
class Machine (σ : Type) where
  core : σ → Core
  setCore : σ → Core → σ
  loadInt (n : Nat) : σ → VirtAddr → Except Abort (LoadResult n × σ)
  storeInt (n : Nat) : σ → VirtAddr → BitVec (8 * n) → Except Abort (SimStatus × σ)

/-- What a handler does when it is done. -/
inductive Flow where
  /-- It calls the handler of the next instruction of the block. -/
  | next
  /-- It returns a status to the simulation loop. -/
  | ret (status : SimStatus)
  deriving DecidableEq, Repr

/-- The bits that are zero in the address of an instruction. -/
def pcAlignMask : VirtAddr := 3

namespace Core

/-- The program counter. -/
def pc (core : Core) : VirtAddr := core.hart.pc

/-- Retire an instruction that goes on at an address. -/
def jumpTo (core : Core) (pc : VirtAddr) : Core where
  hart := { core.hart with pc := pc }
  icount := core.icount + 1

/-- Retire an instruction that goes on at the next one. -/
def incr (core : Core) : Core := core.jumpTo (core.pc + instrCodeSize)

/-- Read a register. -/
def read (core : Core) (idx : BitVec 8) : Except Abort RegValue := core.hart.gprFile.read idx

/-- Write a register. -/
def write (core : Core) (idx : BitVec 8) (value : RegValue) : Except Abort Core :=
  match core.hart.gprFile.write idx value with
  | .error why => .error why
  | .ok gprFile => .ok { core with hart := { core.hart with gprFile := gprFile } }

end Core

/-- The shapes of instruction handlers, with what each handler of a shape does differently. -/
inductive Handler where
  /-- Return the status that is stored in the instruction. -/
  | status
  /-- Retire and stop the simulation. -/
  | exit
  /-- Write a computed value to `rd` and go on. -/
  | compute (res : Core → Instr → Except Abort RegValue)
  /-- Load an integer of `n` bytes, widen it and write it to `rd`. -/
  | load (n : Nat) (widen : BitVec (8 * n) → RegValue)
  /-- Store the low `n` bytes of `rs2`. -/
  | store (n : Nat)
  /-- Jump to a computed address and link. -/
  | jump (newPc : Core → Instr → Except Abort VirtAddr)
  /-- Branch when the comparison of `rs1` and `rs2` holds. -/
  | branch (cmp : RegValue → RegValue → Bool)

/-- The immediate of an instruction as a signed 32-bit value in a register. -/
def Instr.signedImm (instr : Instr) : RegValue := instr.imm.signExtend 64

section exec

variable {σ : Type} [Machine σ]

open Machine

/-- Handle an instruction that writes a computed value. -/
def simCompute (res : Core → Instr → Except Abort RegValue) (sim : σ) (instr : Instr) :
    Except Abort (Flow × σ) :=
  match res (core sim) instr with
  | .error why => .error why
  | .ok value =>
    -- Register zero takes no value, and the instruction is retired all the same.
    match (core sim).write instr.rd value with
    | .error why => .error why
    | .ok written => .ok (.next, setCore sim written.incr)

/-- Simulate a load instruction. -/
def simLoadInstr (n : Nat) (widen : BitVec (8 * n) → RegValue) (sim : σ) (instr : Instr) :
    Except Abort (Flow × σ) :=
  match (core sim).read instr.rs1 with
  | .error why => .error why
  | .ok vaBase =>
    match loadInt n sim (vaBase + instr.signedImm) with
    | .error why => .error why
    | .ok (res, sim) =>
      -- A failed load writes no register and retires nothing.
      if res.status ≠ .ok then .ok (.ret res.status, sim)
      else
        match (core sim).write instr.rd (widen res.value) with
        | .error why => .error why
        | .ok written => .ok (.next, setCore sim written.incr)

/-- Simulate a store instruction. -/
def simStoreInstr (n : Nat) (sim : σ) (instr : Instr) : Except Abort (Flow × σ) :=
  match (core sim).read instr.rs1 with
  | .error why => .error why
  | .ok vaBase =>
    match (core sim).read instr.rs2 with
    | .error why => .error why
    | .ok value =>
      match storeInt n sim (vaBase + instr.signedImm) (value.setWidth (8 * n)) with
      | .error why => .error why
      | .ok (status, sim) =>
        -- Nor does a failed store.
        if status ≠ .ok then .ok (.ret status, sim)
        else .ok (.next, setCore sim (core sim).incr)

/-- Simulate a jump instruction. -/
def simJump (newPc : Core → Instr → Except Abort VirtAddr) (sim : σ) (instr : Instr) :
    Except Abort (Flow × σ) :=
  let linkPc := (core sim).pc + 4
  match newPc (core sim) instr with
  | .error why => .error why
  | .ok newPc =>
    -- The target is computed and checked before the link register is written.
    if newPc &&& pcAlignMask ≠ 0 then .ok (.ret .simPcAlignError, sim)
    else
      match (core sim).write instr.rd linkPc with
      | .error why => .error why
      | .ok written => .ok (.ret .ok, setCore sim (written.jumpTo newPc))

/-- Simulate a conditional branch. -/
def simCondBranch (cmp : RegValue → RegValue → Bool) (sim : σ) (instr : Instr) :
    Except Abort (Flow × σ) :=
  match (core sim).read instr.rs1 with
  | .error why => .error why
  | .ok rs1 =>
    match (core sim).read instr.rs2 with
    | .error why => .error why
    | .ok rs2 =>
      -- The target of a branch that is not taken is not checked.
      if cmp rs1 rs2 then
        let newPc := (core sim).pc + instr.signedImm
        if newPc &&& pcAlignMask ≠ 0 then .ok (.ret .simPcAlignError, sim)
        else .ok (.ret .ok, setCore sim ((core sim).jumpTo newPc))
      else .ok (.ret .ok, setCore sim (core sim).incr)

/-- Run a handler on an instruction. -/
def Handler.exec (handler : Handler) (sim : σ) (instr : Instr) : Except Abort (Flow × σ) :=
  match handler with
  | status =>
    match instr.status with
    | .error why => .error why
    | .ok code => .ok (.ret code, sim)
  | exit => .ok (.ret .simExit, setCore sim (core sim).incr)
  | compute res => simCompute res sim instr
  | load n widen => simLoadInstr n widen sim instr
  | store n => simStoreInstr n sim instr
  | jump newPc => simJump newPc sim instr
  | branch cmp => simCondBranch cmp sim instr

end exec

/-- Shift a value, where the source leaves counts from the width upwards undefined. -/
def shiftBy {w : Nat} (shift : BitVec w → Nat → BitVec w) (value : BitVec w) (count : Nat) :
    Except Abort (BitVec w) :=
  if count < w then .ok (shift value count) else .error .undefinedShift

namespace SimInstr

/-- Compute from both source registers. -/
def fromRegs (op : RegValue → RegValue → RegValue) : Handler :=
  .compute fun core instr => do
    let rs1 ← core.read instr.rs1
    let rs2 ← core.read instr.rs2
    return op rs1 rs2

/-- Compute from a source register and the sign-extended immediate. -/
def fromImm (op : RegValue → RegValue → RegValue) : Handler :=
  .compute fun core instr => do
    let rs1 ← core.read instr.rs1
    return op rs1 instr.signedImm

/-- Shift the low bits of a source register by the immediate, and sign-extend the result. -/
def shiftImm (w : Nat) (shift : BitVec w → Nat → BitVec w) : Handler :=
  .compute fun core instr => do
    let rs1 ← core.read instr.rs1
    let res ← shiftBy shift (rs1.setWidth w) instr.imm.toNat
    return res.signExtend 64

/-- Shift the low bits of a source register by the low byte of another, masked to `[hi, 0]`. -/
def shiftReg (w hi : Nat) (shift : BitVec w → Nat → BitVec w) : Handler :=
  .compute fun core instr => do
    let rs2 ← core.read instr.rs2
    -- The mask is made for a byte, where it keeps the upper bits.
    let count := maskBits hi 0 (rs2.setWidth 8)
    let rs1 ← core.read instr.rs1
    let res ← shiftBy shift (rs1.setWidth w) count.toNat
    return res.signExtend 64

/-- The value of a comparison in a register. -/
def ofBool (holds : Bool) : RegValue := if holds then 1 else 0

/-- Sign-extend the low word of a register. -/
def sextWord (value : RegValue) : RegValue := (value.setWidth 32).signExtend 64

def simStatusInstr : Handler := .status
def ecall : Handler := .exit

-- Signed operands are added and subtracted as the unsigned values with the same bits.
def add : Handler := fromRegs fun rs1 rs2 => rs1 + rs2
def sub : Handler := fromRegs fun rs1 rs2 => rs1 - rs2
def slt : Handler := fromRegs fun rs1 rs2 => ofBool (rs1.slt rs2)
def sltu : Handler := fromRegs fun rs1 rs2 => ofBool (rs1.ult rs2)
def and : Handler := fromRegs fun rs1 rs2 => rs1 &&& rs2
def or : Handler := fromRegs fun rs1 rs2 => rs1 ||| rs2
def xor : Handler := fromRegs fun rs1 rs2 => rs1 ^^^ rs2
def addi : Handler := fromImm fun rs1 imm => rs1 + imm
def slti : Handler := fromImm fun rs1 imm => ofBool (rs1.slt imm)
def sltiu : Handler := fromImm fun rs1 imm => ofBool (rs1.ult imm)
def andi : Handler := fromImm fun rs1 imm => rs1 &&& imm
def ori : Handler := fromImm fun rs1 imm => rs1 ||| imm
def xori : Handler := fromImm fun rs1 imm => rs1 ^^^ imm

/-- The sum of the words is widened as a signed word. -/
def addiw : Handler := .compute fun core instr => do
  let rs1 ← core.read instr.rs1
  return (instr.imm + rs1.setWidth 32).signExtend 64

def slli : Handler := shiftImm 64 (· <<< ·)
def srli : Handler := shiftImm 64 (· >>> ·)
def srai : Handler := shiftImm 64 BitVec.sshiftRight
def slliw : Handler := shiftImm 32 (· <<< ·)
def srliw : Handler := shiftImm 32 (· >>> ·)
def sraiw : Handler := shiftImm 32 BitVec.sshiftRight

def lui : Handler := .compute fun _ instr => return instr.signedImm

/-- The unsigned immediate is widened to a signed 64-bit value, so its top bit is not a sign. -/
def auipc : Handler := .compute fun core instr => return instr.imm.setWidth 64 + core.pc

def sll : Handler := shiftReg 64 5 (· <<< ·)
def srl : Handler := shiftReg 64 5 (· >>> ·)
def sra : Handler := shiftReg 64 5 BitVec.sshiftRight
def addw : Handler := fromRegs fun rs1 rs2 => sextWord (rs1 + rs2)
def subw : Handler := fromRegs fun rs1 rs2 => sextWord (rs1 - rs2)
def sllw : Handler := shiftReg 32 4 (· <<< ·)
def srlw : Handler := shiftReg 32 4 (· >>> ·)
def sraw : Handler := shiftReg 32 4 BitVec.sshiftRight

def ld : Handler := .load 8 (·.signExtend 64)
def lw : Handler := .load 4 (·.signExtend 64)
def lh : Handler := .load 2 (·.signExtend 64)
def lb : Handler := .load 1 (·.signExtend 64)
def lwu : Handler := .load 4 (·.setWidth 64)
def lhu : Handler := .load 2 (·.setWidth 64)
def lbu : Handler := .load 1 (·.setWidth 64)
def sd : Handler := .store 8
def sw : Handler := .store 4
def sh : Handler := .store 2
def sb : Handler := .store 1

def jal : Handler := .jump fun core instr => return core.pc + instr.signedImm

/-- The lowest bit of the sum is cleared. -/
def jalr : Handler := .jump fun core instr => do
  let rs1 ← core.read instr.rs1
  return (instr.signedImm + rs1) &&& ~~~1

def beq : Handler := .branch (· == ·)
def bne : Handler := .branch (· != ·)
def blt : Handler := .branch BitVec.slt
def bltu : Handler := .branch BitVec.ult
def bge : Handler := .branch fun rs1 rs2 => !rs1.slt rs2
def bgeu : Handler := .branch fun rs1 rs2 => !rs1.ult rs2

end SimInstr

/-- The handlers that are written for an instruction. -/
def simInstr : InstrId → Option Handler
  | .simStatusInstr => some SimInstr.simStatusInstr
  | .ecall => some SimInstr.ecall
  | .add => some SimInstr.add
  | .sub => some SimInstr.sub
  | .slt => some SimInstr.slt
  | .sltu => some SimInstr.sltu
  | .and => some SimInstr.and
  | .or => some SimInstr.or
  | .xor => some SimInstr.xor
  | .addi => some SimInstr.addi
  | .slti => some SimInstr.slti
  | .sltiu => some SimInstr.sltiu
  | .andi => some SimInstr.andi
  | .ori => some SimInstr.ori
  | .xori => some SimInstr.xori
  | .addiw => some SimInstr.addiw
  | .slli => some SimInstr.slli
  | .srli => some SimInstr.srli
  | .srai => some SimInstr.srai
  | .slliw => some SimInstr.slliw
  | .srliw => some SimInstr.srliw
  | .sraiw => some SimInstr.sraiw
  | .lui => some SimInstr.lui
  | .auipc => some SimInstr.auipc
  | .sll => some SimInstr.sll
  | .srl => some SimInstr.srl
  | .sra => some SimInstr.sra
  | .addw => some SimInstr.addw
  | .subw => some SimInstr.subw
  | .sllw => some SimInstr.sllw
  | .srlw => some SimInstr.srlw
  | .sraw => some SimInstr.sraw
  | .ld => some SimInstr.ld
  | .lw => some SimInstr.lw
  | .lwu => some SimInstr.lwu
  | .lh => some SimInstr.lh
  | .lhu => some SimInstr.lhu
  | .lb => some SimInstr.lb
  | .lbu => some SimInstr.lbu
  | .sd => some SimInstr.sd
  | .sw => some SimInstr.sw
  | .sh => some SimInstr.sh
  | .sb => some SimInstr.sb
  | .jal => some SimInstr.jal
  | .jalr => some SimInstr.jalr
  | .beq => some SimInstr.beq
  | .bne => some SimInstr.bne
  | .blt => some SimInstr.blt
  | .bltu => some SimInstr.bltu
  | .bge => some SimInstr.bge
  | .bgeu => some SimInstr.bgeu
  | _ => none

end RiscvSim

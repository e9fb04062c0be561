import RiscvSim.Simulator.Simulator

/-! Simulation with its log compiled in: what each handler prints, and when. -/

namespace RiscvSim

/-- A line of the log. -/
inductive LogLine where
  /-- An instruction is simulated. -/
  | instr (pc : VirtAddr) (mnemonic : String)
  /-- A register was written, or register zero. -/
  | gprWrite (idx : BitVec 8) (value : RegValue)
  /-- The program counter was set. -/
  | pcWrite (pc : VirtAddr)
  /-- A value was stored. -/
  | memWrite (va : VirtAddr) (value : RegValue)
  deriving DecidableEq, Repr

/-- A machine, and the lines that it has printed where it was given a stream. -/
structure Logging (σ : Type) where
  sim : σ
  log : Option (List LogLine) := none

namespace Logging

variable {σ : Type}

/-- Print a line, where there is a stream. -/
def print (logging : Logging σ) (line : LogLine) : Logging σ :=
  { logging with log := logging.log.map (· ++ [line]) }

variable [Machine σ]

open Machine

/-- The log is no part of the machine. -/
instance : Machine (Logging σ) where
  core logging := core logging.sim
  setCore logging replaced := { logging with sim := setCore logging.sim replaced }
  loadInt n logging va :=
    (loadInt n logging.sim va).map fun (res, sim) => (res, { logging with sim := sim })
  storeInt n logging va value :=
    (storeInt n logging.sim va value).map fun (status, sim) => (status, { logging with sim := sim })

/-- Log an instruction. -/
def logInstr (logging : Logging σ) (mnemonic : String) : Logging σ :=
  logging.print (.instr (core logging).pc mnemonic)

/-- Log the value of a register. -/
def logGprWrite (logging : Logging σ) (idx : BitVec 8) : Except Abort (Logging σ) :=
  -- No register is read without a stream.
  if logging.log.isNone then .ok logging
  else
    match (core logging).read idx with
    | .error why => .error why
    | .ok value => .ok (logging.print (.gprWrite idx value))

/-- Log the program counter. -/
def logPcWrite (logging : Logging σ) : Logging σ := logging.print (.pcWrite (core logging).pc)

/-- Log a value that was stored. -/
def logMemWrite (logging : Logging σ) (va : VirtAddr) (value : RegValue) : Logging σ :=
  logging.print (.memWrite va value)

/-- Handle an instruction that writes a computed value. -/
def simCompute (mnemonic : String) (res : Core → Instr → Except Abort RegValue)
    (logging : Logging σ) (instr : Instr) : Except Abort (Flow × Logging σ) :=
  match res (core logging) instr with
  | .error why => .error why
  | .ok value =>
    match (core logging).write instr.rd value with
    | .error why => .error why
    | .ok written =>
      -- The instruction is logged only now, with its register.
      match ((setCore logging written).logInstr mnemonic).logGprWrite instr.rd with
      | .error why => .error why
      | .ok logging => .ok (.next, setCore logging (core logging).incr)

/-- Simulate a load instruction. -/
def simLoadInstr (mnemonic : String) (n : Nat) (widen : BitVec (8 * n) → RegValue)
    (logging : Logging σ) (instr : Instr) : Except Abort (Flow × Logging σ) :=
  let logging := logging.logInstr mnemonic
  match (core logging).read instr.rs1 with
  | .error why => .error why
  | .ok vaBase =>
    match loadInt n logging (vaBase + instr.signedImm) with
    | .error why => .error why
    | .ok (res, logging) =>
      if res.status ≠ .ok then .ok (.ret res.status, logging)
      else
        match (core logging).write instr.rd (widen res.value) with
        | .error why => .error why
        | .ok written =>
          match (setCore logging written).logGprWrite instr.rd with
          | .error why => .error why
          | .ok logging => .ok (.next, setCore logging (core logging).incr)

/-- Simulate a store instruction. -/
def simStoreInstr (mnemonic : String) (n : Nat) (logging : Logging σ) (instr : Instr) :
    Except Abort (Flow × Logging σ) :=
  let logging := logging.logInstr mnemonic
  match (core logging).read instr.rs1 with
  | .error why => .error why
  | .ok vaBase =>
    match (core logging).read instr.rs2 with
    | .error why => .error why
    | .ok rs2 =>
      let va := vaBase + instr.signedImm
      let value := rs2.setWidth (8 * n)
      match storeInt n logging va value with
      | .error why => .error why
      | .ok (status, logging) =>
        if status ≠ .ok then .ok (.ret status, logging)
        else
          let logging := logging.logMemWrite va (value.setWidth 64)
          .ok (.next, setCore logging (core logging).incr)

/-- Simulate a jump instruction. -/
def simJump (mnemonic : String) (newPc : Core → Instr → Except Abort VirtAddr)
    (logging : Logging σ) (instr : Instr) : Except Abort (Flow × Logging σ) :=
  let logging := logging.logInstr mnemonic
  let linkPc := (core logging).pc + 4
  match newPc (core logging) instr with
  | .error why => .error why
  | .ok newPc =>
    if newPc &&& pcAlignMask ≠ 0 then .ok (.ret .simPcAlignError, logging)
    else
      match (core logging).write instr.rd linkPc with
      | .error why => .error why
      | .ok written =>
        -- Both writes are logged after the instruction is retired.
        match (setCore logging (written.jumpTo newPc)).logGprWrite instr.rd with
        | .error why => .error why
        | .ok logging => .ok (.ret .ok, logging.logPcWrite)

/-- Simulate a conditional branch. -/
def simCondBranch (mnemonic : String) (cmp : RegValue → RegValue → Bool) (logging : Logging σ)
    (instr : Instr) : Except Abort (Flow × Logging σ) :=
  let logging := logging.logInstr mnemonic
  match (core logging).read instr.rs1 with
  | .error why => .error why
  | .ok rs1 =>
    match (core logging).read instr.rs2 with
    | .error why => .error why
    | .ok rs2 =>
      if cmp rs1 rs2 then
        let newPc := (core logging).pc + instr.signedImm
        if newPc &&& pcAlignMask ≠ 0 then .ok (.ret .simPcAlignError, logging)
        else .ok (.ret .ok, (setCore logging ((core logging).jumpTo newPc)).logPcWrite)
      else .ok (.ret .ok, (setCore logging (core logging).incr).logPcWrite)

/-- Run a handler on an instruction. -/
def exec (handler : Handler) (mnemonic : String) (logging : Logging σ) (instr : Instr) :
    Except Abort (Flow × Logging σ) :=
  match handler with
  -- A status is no instruction, and is not logged.
  | .status =>
    match instr.status with
    | .error why => .error why
    | .ok code => .ok (.ret code, logging)
  | .exit =>
    let logging := logging.logInstr mnemonic
    .ok (.ret .simExit, setCore logging (core logging).incr)
  | .compute res => simCompute mnemonic res logging instr
  | .load n widen => simLoadInstr mnemonic n widen logging instr
  | .store n => simStoreInstr mnemonic n logging instr
  | .jump newPc => simJump mnemonic newPc logging instr
  | .branch cmp => simCondBranch mnemonic cmp logging instr

end Logging

/-- The mnemonics that the handlers log. -/
def InstrId.mnemonic : InstrId → String
  | .ecall => "ECALL"
  | .add => "ADD"
  | .sub => "SUB"
  | .slt => "SLT"
  | .sltu => "SLTU"
  | .and => "AND"
  | .or => "OR"
  | .xor => "XOR"
  | .addi => "ADDI"
  | .slti => "SLTI"
  | .sltiu => "SLTIU"
  | .andi => "ANDI"
  | .ori => "ORI"
  | .xori => "XORI"
  | .addiw => "ADDIW"
  | .slli => "SLLI"
  | .srli => "SRLI"
  | .srai => "SRAI"
  | .slliw => "SLLIW"
  | .srliw => "SRLIW"
  | .sraiw => "SRAIW"
  | .lui => "LUI"
  | .auipc => "AUIPC"
  | .sll => "SLL"
  | .srl => "SRL"
  | .sra => "SRA"
  | .addw => "ADDW"
  | .subw => "SUBW"
  | .sllw => "SLLW"
  | .srlw => "SRLW"
  | .sraw => "SRAW"
  | .ld => "LD"
  | .lw => "LW"
  | .lh => "LH"
  | .lb => "LB"
  | .lwu => "LWU"
  | .lhu => "LHU"
  | .lbu => "LBU"
  | .sd => "SD"
  | .sw => "SW"
  | .sh => "SH"
  | .sb => "SB"
  | .jal => "JAL"
  | .jalr => "JALR"
  | .beq => "BEQ"
  | .bne => "BNE"
  | .blt => "BLT"
  | .bltu => "BLTU"
  | .bge => "BGE"
  | .bgeu => "BGEU"
  -- The other instructions have no handler, and a status has nothing to log.
  | _ => ""

namespace Logging

/-- Call the handler of an instruction, which calls those of the next ones until one returns. -/
def dispatchFrom : List Instr → Logging Simulator → Except Abort (SimStatus × Logging Simulator)
  | [], _ => .error .pastBlockEnd
  | instr :: rest, logging =>
    match dispatch instr.id with
    | none => .error .nullHandler
    | some handler =>
      match exec handler instr.id.mnemonic logging instr with
      | .error why => .error why
      | .ok (.next, logging) => dispatchFrom rest logging
      | .ok (.ret status, logging) => .ok (status, logging)

/-- One iteration of the loop, with the status that it returns from `simulate`, if any. -/
def simulateIter (logging : Logging Simulator) :
    Except Abort (Option SimStatus × Logging Simulator) :=
  match logging.sim.findBb with
  | .error why => .error why
  | .ok (cachedBb, sim) =>
    match dispatchFrom cachedBb.instrs { logging with sim := sim } with
    | .error why => .error why
    | .ok (status, logging) =>
      if status = .simExit then .ok (some .ok, logging)
      else if status ≠ .ok then .ok (some status, logging)
      else .ok (none, logging)

/-- At most the given number of iterations, with no status while the loop goes on. -/
def simulateLoop : Nat → Logging Simulator → Except Abort (Option SimStatus × Logging Simulator)
  | 0, logging => .ok (none, logging)
  | iterations + 1, logging =>
    match logging.simulateIter with
    | .error why => .error why
    | .ok (some status, logging) => .ok (some status, logging)
    | .ok (none, logging) => simulateLoop iterations logging

/-- Simulate from an address for at most the given number of iterations. -/
def simulate (logging : Logging Simulator) (startPc : VirtAddr) (iterations : Nat) :
    Except Abort (Option SimStatus × Logging Simulator) :=
  simulateLoop iterations { logging with sim := logging.sim.start startPc }

end Logging

end RiscvSim

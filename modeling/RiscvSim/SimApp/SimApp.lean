import RiscvSim.ElfLoad.ElfLoader
import RiscvSim.Simulator.Simulator

/-! The application: it loads a program, simulates it and prints the registers. -/

namespace RiscvSim

/-- The index of the stack pointer. -/
def GPRFile.sp : BitVec 8 := 2

namespace SimApp

/-- What the process leaves: the lines that it prints and its exit code. -/
structure Exit where
  lines : List String
  code : Int
  deriving DecidableEq, Repr

/-- A number in a base, with zeros in front up to a width. -/
def setw (width base value : Nat) : String :=
  String.ofList ((Nat.toDigits base value).leftpad width '0')

/-- The line of a register. -/
def gprLine (i : Nat) (value : RegValue) : String :=
  "[" ++ setw 2 10 i ++ "] = 0x" ++ setw 16 16 value.toNat

/-- The lines of the registers from an index on, as many as are given. -/
def dumpGprsFrom (gprFile : GPRFile) : Nat → Nat → Except Abort (List String)
  | 0, _ => .ok []
  | count + 1, i =>
    match gprFile.read (BitVec.ofNat 8 i) with
    | .error why => .error why
    | .ok value =>
      match dumpGprsFrom gprFile count (i + 1) with
      | .error why => .error why
      | .ok lines => .ok (gprLine i value :: lines)

/-- The lines of the general purpose registers. -/
def dumpGprFile (gprFile : GPRFile) : Except Abort (List String) :=
  dumpGprsFrom gprFile gprNumber 0

/-- What is printed after a simulation, and the exit code. -/
def report (status : SimStatus) (sim : Simulator) : Except Abort Exit :=
  match dumpGprFile sim.hart.gprFile with
  | .error why => .error why
  | .ok gprs =>
    -- The instructions are counted in 64 bits.
    let lines := ("icount = " ++ toString (sim.icount % 2 ^ 64)) :: "GPRs:" :: gprs
    if status = .ok then .ok ⟨lines ++ ["Success"], 0⟩
    else .ok ⟨lines ++ ["Error: " ++ toString status.toUnderlying.toNat], -1⟩

/-- Give a simulator a stack, the program of a file and translation, and tell where to start.

There is no result while a loop of the loader takes more than the given number of iterations.
-/
def load (iterations : Nat) (simulator : Simulator) (elfFile : Option ElfFile) :
    Except Abort (Option (Simulator × RegValue)) :=
  match ElfLoader.new simulator.physMemory with
  | .error why => .error why
  | .ok (loader, memory) =>
    match loader.mapStack memory with
    | .error why => .error why
    | .ok (stackMapStatus, startSp, loader, memory) =>
      if stackMapStatus ≠ .ok then .error .assertion
      else
        match simulator.hart.gprFile.write GPRFile.sp startSp with
        | .error why => .error why
        | .ok gprFile =>
          match elfFile with
          -- The file could not be opened, or is none that the library accepts.
          | none => .error .assertion
          | some file =>
            match loader.loadElf iterations memory file with
            | .error why => .error why
            | .ok (none, _, _) => .ok none
            | .ok (some loadElfRes, _, memory) =>
              if loadElfRes.status ≠ .ok then .error .assertion
              else
                let satp64 := SATP64.setMODE {} .sv39
                let csrFile := simulator.hart.csrFile.setSatp64 satp64
                let hart := { simulator.hart with gprFile := gprFile, csrFile := csrFile }
                .ok (some ({ simulator with hart := hart, physMemory := memory },
                  loadElfRes.startPc))

/-- Simulate from an address and report. -/
def simulate (iterations : Nat) (simulator : Simulator) (startPc : RegValue) :
    Except Abort (Option Exit) :=
  match simulator.simulate startPc iterations with
  | .error why => .error why
  | .ok (none, _) => .ok none
  | .ok (some status, simulator) =>
    match report status simulator with
    | .error why => .error why
    | .ok exit => .ok (some exit)

/-- Load a program into a simulator, and simulate it. -/
def runElf (iterations : Nat) (simulator : Simulator) (elfFile : Option ElfFile) :
    Except Abort (Option Exit) :=
  match load iterations simulator elfFile with
  | .error why => .error why
  | .ok none => .ok none
  | .ok (some (simulator, startPc)) => simulate iterations simulator startPc

/-- Run the program that the argument names in a new simulator.

There is no result while a loop takes more than the given number of iterations.
-/
def main (iterations : Nat) (files : String → Option ElfFile) (argv : List String) :
    Except Abort (Option Exit) :=
  match argv with
  | [_, elfName] => runElf iterations {} (files elfName)
  -- There is one argument.
  | _ => .error .assertion

end SimApp

end RiscvSim

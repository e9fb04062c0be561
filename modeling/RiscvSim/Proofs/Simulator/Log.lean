import RiscvSim.Proofs.Simulator.Dispatch
import RiscvSim.Proofs.Simulator.Failure
import RiscvSim.Simulator.Log

/-! The log only listens: with it the simulator does the same, and the lines tell what it did. -/

namespace RiscvSim

open Machine Transition

/-- The line about a register that was written. -/
def Core.gprLines (core : Core) (idx : BitVec 8) : List LogLine :=
  match core.read idx with
  | .error _ => []
  | .ok value => [.gprWrite idx value]

/-- The line about the `n` bytes that an instruction stores. -/
def Core.memLines (core : Core) (n : Nat) (instr : Instr) : List LogLine :=
  match core.read instr.rs1, core.read instr.rs2 with
  | .ok vaBase, .ok rs2 =>
    [.memWrite (vaBase + instr.signedImm) ((rs2.setWidth (8 * n)).setWidth 64)]
  | _, _ => []

/-- The lines about an instruction, by the hart before and after it and by how it ended. -/
def Handler.lines (handler : Handler) (mnemonic : String) (before : Core) (instr : Instr)
    (flow : Flow) (after : Core) : List LogLine :=
  match handler, flow with
  | .status, _ => []
  | .compute _, .next | .load _ _, .next =>
    .instr before.pc mnemonic :: after.gprLines instr.rd
  | .store n, .next => .instr before.pc mnemonic :: before.memLines n instr
  | .jump _, .ret .ok =>
    .instr before.pc mnemonic :: (after.gprLines instr.rd ++ [.pcWrite after.pc])
  | .branch _, .ret .ok => [.instr before.pc mnemonic, .pcWrite after.pc]
  -- An exit, or a failure, which changes nothing.
  | _, _ => [.instr before.pc mnemonic]

/-- A machine whose core is a component of its own. -/
class LawfulMachine (σ : Type) [Machine σ] : Prop where
  core_setCore : ∀ (state : σ) (replaced : Core), core (setCore state replaced) = replaced
  setCore_setCore : ∀ (state : σ) (replaced again : Core),
    setCore (setCore state replaced) again = setCore state again

instance : LawfulMachine Simulator := ⟨fun _ _ => rfl, fun _ _ _ => rfl⟩

/-- A register that was just written can be read. -/
theorem Core.read_of_write {core written : Core} {idx : BitVec 8} {value : RegValue}
    (result : core.write idx value = .ok written) : ∃ stored, written.read idx = .ok stored := by
  unfold Core.write GPRFile.write at result
  split at result
  · cases result
  · rename_i gprFile stored
    cases result
    split at stored
    · rename_i inside
      exact ⟨_, dif_pos inside⟩
    · cases stored

namespace Logging

variable {σ : Type}

/-- Add lines, where there is a stream. -/
def add (logging : Logging σ) (lines : List LogLine) : Logging σ :=
  { logging with log := logging.log.map (· ++ lines) }

/-- Adding no line changes nothing. -/
theorem add_nil (logging : Logging σ) : logging.add [] = logging := by
  obtain ⟨sim, log⟩ := logging
  cases log with
  | none => rfl
  | some lines => rw [add, Option.map_some, List.append_nil]

/-- Lines that are added in turn are added together. -/
theorem add_add (logging : Logging σ) (lines more : List LogLine) :
    (logging.add lines).add more = logging.add (lines ++ more) := by
  obtain ⟨sim, log⟩ := logging
  cases log with
  | none => rfl
  | some old => simp only [add, Option.map_some, List.append_assoc]

/-- Logging a stored value adds a line. -/
theorem logMemWrite_eq (logging : Logging σ) (va : VirtAddr) (value : RegValue) :
    logging.logMemWrite va value = logging.add [.memWrite va value] := rfl

variable [Machine σ]

/-- The log is no part of the core. -/
theorem core_add (logging : Logging σ) (lines : List LogLine) :
    core (logging.add lines) = core logging.sim := rfl

/-- Replacing the core keeps the lines. -/
theorem setCore_add (logging : Logging σ) (lines : List LogLine) (replaced : Core) :
    setCore (logging.add lines) replaced = (setCore logging replaced).add lines := rfl

/-- A load keeps the lines. -/
theorem loadInt_add (n : Nat) (logging : Logging σ) (lines : List LogLine) (va : VirtAddr) :
    loadInt n (logging.add lines) va =
      (loadInt n logging.sim va).map fun (res, sim) =>
        (res, add { logging with sim := sim } lines) := rfl

/-- A store keeps the lines. -/
theorem storeInt_add (n : Nat) (logging : Logging σ) (lines : List LogLine) (va : VirtAddr)
    (value : BitVec (8 * n)) :
    storeInt n (logging.add lines) va value =
      (storeInt n logging.sim va value).map fun (status, sim) =>
        (status, add { logging with sim := sim } lines) := rfl

/-- Logging an instruction adds its line. -/
theorem logInstr_eq (logging : Logging σ) (mnemonic : String) :
    logging.logInstr mnemonic = logging.add [.instr (core logging).pc mnemonic] := rfl

/-- Logging the program counter adds a line. -/
theorem logPcWrite_eq (logging : Logging σ) :
    logging.logPcWrite = logging.add [.pcWrite (core logging).pc] := rfl

/-- What a handler returned, with the lines that it added. -/
def listen (handler : Handler) (mnemonic : String) (logging : Logging σ) (instr : Instr) :
    Flow × σ → Flow × Logging σ
  | (flow, sim) => (flow, add { logging with sim := sim }
      (handler.lines mnemonic (core logging.sim) instr flow (core sim)))

/-- With its log a storing handler does what it does without. -/
theorem simStoreInstr_eq (mnemonic : String) (n : Nat) (logging : Logging σ) (instr : Instr) :
    simStoreInstr mnemonic n logging instr =
      ((Handler.store n).exec logging.sim instr).map
        (listen (.store n) mnemonic logging instr) := by
  simp only [simStoreInstr, Handler.exec, RiscvSim.simStoreInstr, logInstr_eq, core_add,
    storeInt_add, show core logging = core logging.sim from rfl]
  cases base : (core logging.sim).read instr.rs1 with
  | error why => rfl
  | ok vaBase =>
    dsimp only
    cases source : (core logging.sim).read instr.rs2 with
    | error why => rfl
    | ok rs2 =>
      dsimp only
      cases storeInt n logging.sim (vaBase + instr.signedImm) (rs2.setWidth (8 * n)) with
      | error why => rfl
      | ok result =>
        obtain ⟨status, sim⟩ := result
        simp only [Except.map]
        split
        · rfl
        · simp only [logMemWrite_eq, add_add, setCore_add, listen, Handler.lines, Core.memLines,
            base, source]
          rfl

variable [LawfulMachine σ]

instance : LawfulMachine (Logging σ) where
  core_setCore logging := LawfulMachine.core_setCore logging.sim
  setCore_setCore logging replaced again :=
    congrArg (Logging.mk · logging.log) (LawfulMachine.setCore_setCore logging.sim replaced again)

open LawfulMachine

/-- The core is the one that was put there. -/
theorem core_setCore_add (logging : Logging σ) (lines : List LogLine) (replaced : Core) :
    core ((setCore logging replaced).add lines) = replaced := core_setCore logging replaced

/-- A register that was just written is logged. -/
theorem logGprWrite_setCore (logging : Logging σ) (lines : List LogLine)
    {before written retired : Core} {idx : BitVec 8} {value : RegValue}
    (write : before.write idx value = .ok written)
    (same : retired.hart.gprFile = written.hart.gprFile) :
    ((setCore logging retired).add lines).logGprWrite idx =
      .ok ((setCore logging retired).add (lines ++ retired.gprLines idx)) := by
  obtain ⟨stored, read⟩ := Core.read_of_write write
  have read : retired.read idx = .ok stored := by rw [Core.read, same]; exact read
  unfold logGprWrite
  rw [core_setCore_add, Core.gprLines, read]
  obtain ⟨sim, log⟩ := logging
  cases log with
  | none => rfl
  | some old =>
    dsimp only
    rw [← add_add]
    rfl

/-- With its log a computing handler does what it does without. -/
theorem simCompute_eq (mnemonic : String) (res : Core → Instr → Except Abort RegValue)
    (logging : Logging σ) (instr : Instr) :
    simCompute mnemonic res logging instr =
      ((Handler.compute res).exec logging.sim instr).map
        (listen (.compute res) mnemonic logging instr) := by
  simp only [simCompute, Handler.exec, RiscvSim.simCompute,
    show core logging = core logging.sim from rfl]
  cases res (core logging.sim) instr with
  | error why => rfl
  | ok value =>
    dsimp only
    cases write : (core logging.sim).write instr.rd value with
    | error why => rfl
    | ok written =>
      -- The program counter is still that of the instruction.
      obtain ⟨gprFile, same⟩ := Core.write_frame write
      have pc : written.pc = (core logging.sim).pc := by rw [same]; rfl
      simp only [logInstr_eq, core_setCore, logGprWrite_setCore _ _ write rfl, core_setCore_add,
        setCore_add, setCore_setCore, pc, Except.map, listen, Handler.lines]
      rfl

/-- With its log a loading handler does what it does without. -/
theorem simLoadInstr_eq (mnemonic : String) (n : Nat) (widen : BitVec (8 * n) → RegValue)
    (logging : Logging σ) (instr : Instr) :
    simLoadInstr mnemonic n widen logging instr =
      ((Handler.load n widen).exec logging.sim instr).map
        (listen (.load n widen) mnemonic logging instr) := by
  simp only [simLoadInstr, Handler.exec, RiscvSim.simLoadInstr, logInstr_eq, core_add, loadInt_add,
    show core logging = core logging.sim from rfl]
  cases (core logging.sim).read instr.rs1 with
  | error why => rfl
  | ok vaBase =>
    dsimp only
    cases loadInt n logging.sim (vaBase + instr.signedImm) with
    | error why => rfl
    | ok result =>
      obtain ⟨res, sim⟩ := result
      simp only [Except.map]
      split
      · rfl
      · rw [core_add]
        dsimp only
        cases write : (core sim).write instr.rd (widen res.value) with
        | error why => rfl
        | ok written =>
          simp only [setCore_add, logGprWrite_setCore _ _ write rfl, core_setCore_add,
            setCore_setCore, core_setCore, listen, Handler.lines]
          rfl

/-- With its log a jumping handler does what it does without. -/
theorem simJump_eq (mnemonic : String) (newPc : Core → Instr → Except Abort VirtAddr)
    (logging : Logging σ) (instr : Instr) :
    simJump mnemonic newPc logging instr =
      ((Handler.jump newPc).exec logging.sim instr).map
        (listen (.jump newPc) mnemonic logging instr) := by
  simp only [simJump, Handler.exec, RiscvSim.simJump, logInstr_eq, core_add,
    show core logging = core logging.sim from rfl]
  cases newPc (core logging.sim) instr with
  | error why => rfl
  | ok target =>
    dsimp only
    split
    · rfl
    · cases write : (core logging.sim).write instr.rd ((core logging.sim).pc + 4) with
      | error why => rfl
      | ok written =>
        have link : (written.jumpTo target).hart.gprFile = written.hart.gprFile := rfl
        simp only [setCore_add, logGprWrite_setCore _ _ write link, logPcWrite_eq,
          core_setCore_add, add_add, core_setCore, Except.map, listen, Handler.lines]
        rfl

/-- With its log a branching handler does what it does without. -/
theorem simCondBranch_eq (mnemonic : String) (cmp : RegValue → RegValue → Bool)
    (logging : Logging σ) (instr : Instr) :
    simCondBranch mnemonic cmp logging instr =
      ((Handler.branch cmp).exec logging.sim instr).map
        (listen (.branch cmp) mnemonic logging instr) := by
  simp only [simCondBranch, Handler.exec, RiscvSim.simCondBranch, logInstr_eq, core_add,
    show core logging = core logging.sim from rfl]
  cases (core logging.sim).read instr.rs1 with
  | error why => rfl
  | ok rs1 =>
    dsimp only
    cases (core logging.sim).read instr.rs2 with
    | error why => rfl
    | ok rs2 =>
      dsimp only
      split
      · split
        · rfl
        · simp only [setCore_add, logPcWrite_eq, core_setCore_add, add_add, core_setCore,
            Except.map, listen, Handler.lines]
          rfl
      · simp only [setCore_add, logPcWrite_eq, core_setCore_add, add_add, core_setCore,
          Except.map, listen, Handler.lines]
        rfl

/-- With its log a handler does what it does without, and adds its lines. -/
theorem exec_eq (handler : Handler) (mnemonic : String) (logging : Logging σ) (instr : Instr) :
    exec handler mnemonic logging instr =
      (handler.exec logging.sim instr).map (listen handler mnemonic logging instr) := by
  -- One case for each shape of handler.
  cases handler with
  | status =>
    simp only [exec, Handler.exec]
    cases instr.status with
    | error why => rfl
    | ok code => exact congrArg Except.ok (congrArg (Prod.mk _) (add_nil logging).symm)
  | exit => rfl
  | compute res => exact simCompute_eq mnemonic res logging instr
  | load n widen => exact simLoadInstr_eq mnemonic n widen logging instr
  | store n => exact simStoreInstr_eq mnemonic n logging instr
  | jump newPc => exact simJump_eq mnemonic newPc logging instr
  | branch cmp => exact simCondBranch_eq mnemonic cmp logging instr

end Logging

namespace Simulator

/-- The lines about the instructions of a block from the current one on. -/
def dispatchLines : List Instr → Simulator → List LogLine
  | [], _ => []
  | instr :: rest, sim =>
    match dispatch instr.id with
    | none => []
    | some handler =>
      match handler.exec sim instr with
      | .error _ => []
      | .ok (flow, after) =>
        handler.lines instr.id.mnemonic sim.toCore instr flow after.toCore ++
          match flow with
          | .next => dispatchLines rest after
          | .ret _ => []

/-- The lines about one iteration of the loop. -/
def iterLines (sim : Simulator) : List LogLine :=
  match sim.findBb with
  | .error _ => []
  | .ok (cachedBb, sim) => dispatchLines cachedBb.instrs sim

/-- The lines about at most a number of iterations. -/
def loopLines : Nat → Simulator → List LogLine
  | 0, _ => []
  | iterations + 1, sim =>
    sim.iterLines ++
      match sim.simulateIter with
      | .ok (none, after) => loopLines iterations after
      | _ => []

end Simulator

namespace Logging

/-- A status that was returned, with the lines about the run. -/
def attach {α : Type} (logging : Logging Simulator) (lines : List LogLine) :
    α × Simulator → α × Logging Simulator
  | (status, sim) => (status, add { logging with sim := sim } lines)

/-- With its log a block does what it does without, and adds its lines. -/
theorem dispatchFrom_eq (entries : List Instr) (logging : Logging Simulator) :
    dispatchFrom entries logging = (logging.sim.dispatchFrom entries).map
      (attach logging (Simulator.dispatchLines entries logging.sim)) := by
  -- By induction on the entries, each adds its lines behind those of the ones before.
  induction entries generalizing logging with
  | nil => rfl
  | cons instr rest ih =>
    simp only [dispatchFrom, Simulator.dispatchFrom, Simulator.dispatchLines]
    cases dispatch instr.id with
    | none => rfl
    | some handler =>
      dsimp only
      rw [exec_eq]
      cases handler.exec logging.sim instr with
      | error why => rfl
      | ok result =>
        obtain ⟨flow, after⟩ := result
        cases flow with
        | next =>
          simp only [Except.map, listen]
          rw [ih]
          simp only [show ∀ lines, (add { logging with sim := after } lines).sim = after from
            fun _ => rfl]
          cases after.dispatchFrom rest with
          | error why => rfl
          | ok ended =>
            obtain ⟨status, last⟩ := ended
            exact congrArg (fun logging => Except.ok (status, logging))
              (add_add { logging with sim := last } _ _)
        | ret status => simp only [Except.map, listen, attach, List.append_nil]; rfl

/-- With its log an iteration does what it does without, and adds its lines. -/
theorem simulateIter_eq (logging : Logging Simulator) :
    logging.simulateIter = logging.sim.simulateIter.map
      (attach logging logging.sim.iterLines) := by
  simp only [simulateIter, Simulator.simulateIter, Simulator.iterLines]
  cases logging.sim.findBb with
  | error why => rfl
  | ok found =>
    obtain ⟨cachedBb, sim⟩ := found
    dsimp only
    rw [dispatchFrom_eq]
    dsimp only
    cases sim.dispatchFrom cachedBb.instrs with
    | error why => rfl
    | ok ended =>
      obtain ⟨status, last⟩ := ended
      simp only [Except.map, attach]
      -- The status alone says whether the loop goes on.
      split
      · rfl
      · split <;> rfl

/-- With its log the loop does what it does without, and adds its lines. -/
theorem simulateLoop_eq (iterations : Nat) (logging : Logging Simulator) :
    simulateLoop iterations logging = (logging.sim.simulateLoop iterations).map
      (attach logging (logging.sim.loopLines iterations)) := by
  -- By induction on the iterations.
  induction iterations generalizing logging with
  | zero => exact congrArg (fun logging => Except.ok (none, logging)) (add_nil logging).symm
  | succ iterations ih =>
    simp only [simulateLoop, Simulator.simulateLoop, Simulator.loopLines]
    rw [simulateIter_eq]
    cases logging.sim.simulateIter with
    | error why => rfl
    | ok ended =>
      obtain ⟨status, after⟩ := ended
      cases status with
      | some status => simp only [Except.map, attach, List.append_nil]
      | none =>
        simp only [Except.map, attach]
        rw [ih]
        simp only [show ∀ lines, (add { logging with sim := after } lines).sim = after from
          fun _ => rfl]
        cases after.simulateLoop iterations with
        | error why => rfl
        | ok result =>
          obtain ⟨status, last⟩ := result
          exact congrArg (fun logging => Except.ok (status, logging))
            (add_add { logging with sim := last } _ _)

end Logging

/-- What a reader of the log knows: a hart, and the instruction that the lines are about. -/
structure Replay where
  core : Core
  mnemonic : String := ""

namespace Replay

/-- The instruction writes a register and the program counter. -/
def links (replay : Replay) : Bool := replay.mnemonic == "JAL" || replay.mnemonic == "JALR"

/-- Read a line. -/
def line (replay : Replay) : LogLine → Replay
  -- There is no other line about an environment call.
  | .instr _ mnemonic => ⟨if mnemonic == "ECALL" then replay.core.incr else replay.core, mnemonic⟩
  | .gprWrite idx value =>
    match replay.core.write idx value with
    | .error _ => replay
    -- A jump is retired where its program counter is set.
    | .ok written => { replay with core := if replay.links then written else written.incr }
  | .pcWrite pc => { replay with core := replay.core.jumpTo pc }
  | .memWrite _ _ => { replay with core := replay.core.incr }

end Replay

/-- A handler jumps and links. -/
def Handler.isJump : Handler → Bool
  | .jump _ => true
  | _ => false

/-- The mnemonic of an instruction tells an exit and a jump from the others. -/
theorem InstrId.mnemonic_kind {id : InstrId} {handler : Handler}
    (dispatched : dispatch id = some handler) :
    (id.mnemonic == "ECALL") = handler.isExit ∧
      (id.mnemonic == "JAL" || id.mnemonic == "JALR") = handler.isJump := by
  have found := simInstr_of_dispatch dispatched
  unfold simInstr at found
  split at found <;> cases found <;> decide

/-- Writing the value that a register holds after a write writes the same. -/
theorem Core.write_stored {core written : Core} {idx : BitVec 8} {value stored : RegValue}
    (write : core.write idx value = .ok written) (read : written.read idx = .ok stored) :
    core.write idx stored = .ok written := by
  unfold Core.write GPRFile.write at write ⊢
  unfold Core.read GPRFile.read at read
  split at write
  · cases write
  · rename_i gprFile result
    cases write
    split at result
    · rename_i inside
      cases result
      rw [dif_pos inside] at read ⊢
      cases read
      -- Register zero is cleared at the end, and any other holds the value.
      by_cases zero : (⟨idx.toNat, inside⟩ : Fin gprNumber) = ⟨0, by decide⟩
      · simp only [zero, Function.update_idem]
      · simp only [Function.update_of_ne zero, Function.update_self]
    · cases result

namespace Simulator

variable {sim after : Simulator}

/-- A register that was just written is read in its line. -/
theorem gprLines_of_write (retired : Core) {core written : Core} {idx : BitVec 8}
    {value : RegValue} (write : core.write idx value = .ok written)
    (same : retired.hart.gprFile = written.hart.gprFile) :
    ∃ stored, retired.gprLines idx = [.gprWrite idx stored] ∧
      core.write idx stored = .ok written := by
  obtain ⟨stored, read⟩ := Core.read_of_write write
  refine ⟨stored, ?_, Core.write_stored write read⟩
  have read : retired.read idx = .ok stored := by rw [Core.read, same]; exact read
  rw [Core.gprLines, read]

/-- Reading the lines about an instruction gives the hart after it. -/
theorem replay_exec {instr : Instr} {handler : Handler} {flow : Flow} {replay : Replay}
    (dispatched : dispatch instr.id = some handler)
    (executed : handler.exec sim instr = .ok (flow, after)) (start : replay.core = sim.toCore) :
    ((handler.lines instr.id.mnemonic sim.toCore instr flow after.toCore).foldl Replay.line
      replay).core = after.toCore := by
  obtain ⟨exits, jumps⟩ := InstrId.mnemonic_kind dispatched
  -- The first line retires nothing, unless it is that of an environment call.
  cases exec_ends executed with
  | status => exact start
  | exit =>
    simp only [Handler.lines, List.foldl, Replay.line, exits, Handler.isExit, if_true, start]
  | @computed _ _ written _ write =>
    obtain ⟨stored, line, again⟩ := gprLines_of_write written.incr write rfl
    simp only [Handler.lines, line, List.foldl, Replay.line, Replay.links, exits, jumps,
      Handler.isExit, Handler.isJump, start, again, Bool.false_eq_true, if_false]
  | unloaded _ load failed =>
    obtain ⟨⟨core, _⟩, _⟩ := loadInt_frame load
    simp only [Handler.lines, List.foldl, Replay.line, exits, Handler.isExit, start, core,
      Bool.false_eq_true, if_false]
  | @loaded _ _ _ _ _ written _ load _ write =>
    obtain ⟨⟨core, _⟩, _⟩ := loadInt_frame load
    rw [core] at write
    obtain ⟨stored, line, again⟩ := gprLines_of_write written.incr write rfl
    simp only [Handler.lines, line, List.foldl, Replay.line, Replay.links, exits, jumps,
      Handler.isExit, Handler.isJump, start, again, Bool.false_eq_true, if_false]
  | unstored _ _ store failed =>
    rw [(storeInt_frame store).2.2 failed]
    simp only [Handler.lines, List.foldl, Replay.line, exits, Handler.isExit, start,
      Bool.false_eq_true, if_false]
  | stored base second store =>
    obtain ⟨core, _⟩ := storeInt_frame store
    simp only [Handler.lines, Core.memLines, base, second, List.foldl, Replay.line, exits,
      Handler.isExit, start, core, Bool.false_eq_true, if_false]
  | astray =>
    simp only [Handler.lines, List.foldl, Replay.line, exits, Handler.isExit, start,
      Bool.false_eq_true, if_false]
  | @jumped _ newPc written _ _ write =>
    obtain ⟨stored, line, again⟩ := gprLines_of_write (written.jumpTo newPc) write rfl
    simp only [Handler.lines, line, List.foldl, List.cons_append, List.nil_append, Replay.line,
      Replay.links, exits, jumps, Handler.isExit, Handler.isJump, start, again,
      Bool.false_eq_true, if_false, if_true]
    rfl
  | refused =>
    simp only [Handler.lines, List.foldl, Replay.line, exits, Handler.isExit, start,
      Bool.false_eq_true, if_false]
  | taken =>
    simp only [Handler.lines, List.foldl, Replay.line, exits, Handler.isExit, start,
      Bool.false_eq_true, if_false]
    rfl
  | untaken =>
    simp only [Handler.lines, List.foldl, Replay.line, exits, Handler.isExit, start,
      Bool.false_eq_true, if_false]
    rfl

/-- Reading the lines about a block gives the hart that it leaves. -/
theorem replay_dispatchFrom {entries : List Instr} {status : SimStatus} {replay : Replay}
    (executed : sim.dispatchFrom entries = .ok (status, after)) (start : replay.core = sim.toCore) :
    ((dispatchLines entries sim).foldl Replay.line replay).core = after.toCore := by
  -- By induction on the entries, the lines about the first one are read first.
  induction entries generalizing sim replay with
  | nil => cases executed
  | cons instr rest ih =>
    simp only [dispatchFrom] at executed
    simp only [dispatchLines]
    cases dispatched : dispatch instr.id with
    | none =>
      rw [dispatched] at executed
      cases executed
    | some handler =>
      simp only [dispatched] at executed ⊢
      cases result : handler.exec sim instr with
      | error why =>
        rw [result] at executed
        cases executed
      | ok ended =>
        obtain ⟨flow, next⟩ := ended
        simp only [result] at executed ⊢
        have read := replay_exec dispatched result start
        rw [List.foldl_append]
        cases flow with
        | next => exact ih executed read
        | ret status =>
          cases executed
          exact read

/-- Reading the lines about an iteration gives the hart that it leaves. -/
theorem replay_simulateIter {status : Option SimStatus} {replay : Replay}
    (iterated : sim.simulateIter = .ok (status, after)) (start : replay.core = sim.toCore) :
    (sim.iterLines.foldl Replay.line replay).core = after.toCore := by
  unfold simulateIter at iterated
  unfold iterLines
  cases found : sim.findBb with
  | error why =>
    rw [found] at iterated
    cases iterated
  | ok result =>
    obtain ⟨bb, fetched⟩ := result
    -- Looking up a block prints nothing and keeps the hart.
    obtain ⟨core, _⟩ := (findBb_spec found).2.2
    simp only [found] at iterated ⊢
    cases executed : fetched.dispatchFrom bb.instrs with
    | error why =>
      rw [executed] at iterated
      cases iterated
    | ok ended =>
      obtain ⟨status, last⟩ := ended
      simp only [executed] at iterated
      have read := replay_dispatchFrom executed (start.trans core.symm)
      split at iterated
      · cases iterated
        exact read
      · split at iterated <;> cases iterated <;> exact read

/-- Reading the lines about a run gives the hart that it leaves. -/
theorem replay_simulateLoop {iterations : Nat} {status : Option SimStatus} {replay : Replay}
    (ran : sim.simulateLoop iterations = .ok (status, after)) (start : replay.core = sim.toCore) :
    ((sim.loopLines iterations).foldl Replay.line replay).core = after.toCore := by
  -- By induction on the iterations.
  induction iterations generalizing sim replay with
  | zero =>
    cases ran
    exact start
  | succ iterations ih =>
    simp only [simulateLoop] at ran
    simp only [loopLines, List.foldl_append]
    cases iterated : sim.simulateIter with
    | error why =>
      rw [iterated] at ran
      cases ran
    | ok result =>
      obtain ⟨ended, next⟩ := result
      have read := replay_simulateIter iterated start
      rw [iterated] at ran
      cases ended with
      | some last =>
        cases ran
        exact read
      | none => exact ih ran read

end Simulator

/-- What a log tells about a simulation: lines, from which the hart that is left is read. -/
structure Logging.Tells (logging : Logging Simulator) (startPc : VirtAddr) (iterations : Nat)
    (lines : List LogLine) : Prop where
  /-- The simulation does what it does without a log, and the lines are added. -/
  listens : logging.simulate startPc iterations =
    (logging.sim.simulate startPc iterations).map (attach logging lines)
  replays : ∀ status after, logging.sim.simulate startPc iterations = .ok (status, after) →
    (lines.foldl Replay.line ⟨(logging.sim.start startPc).toCore, ""⟩).core = after.toCore

/-- Every simulation leaves a log that tells what became of the hart. -/
theorem Logging.simulate_told (logging : Logging Simulator) (startPc : VirtAddr)
    (iterations : Nat) : ∃ lines, logging.Tells startPc iterations lines :=
  ⟨_, simulateLoop_eq iterations { logging with sim := logging.sim.start startPc },
    fun _ _ ran => Simulator.replay_simulateLoop ran rfl⟩

end RiscvSim

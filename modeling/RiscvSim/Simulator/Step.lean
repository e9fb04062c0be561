import RiscvSim.Simulator.Simulator
import RiscvSim.Lib.Transition

/-! The simulation loop one step at a time: a block is looked up, or one of its entries executed. -/

namespace RiscvSim

/-- A point of the simulation loop. -/
structure Config where
  sim : Simulator
  /-- The entries of the block from the current one on, unless a block is to be looked up. -/
  rest : Option (List Instr) := none

/-- The result of simulation: a status and the state it was returned in, unless it aborted. -/
abbrev SimResult (σ : Type) := Except Abort (SimStatus × σ)

namespace Config

/-- What the loop does with a status that a handler returned. -/
def ofStatus {σ τ : Type} (goOn : σ → τ) (status : SimStatus) (state : σ) :
    Outcome τ (SimResult σ) :=
  -- A handler that exits makes the simulation succeed.
  if status = .simExit then .stop (.ok (.ok, state))
  else if status ≠ .ok then .stop (.ok (status, state))
  else .next (goOn state)

/-- One step of the simulation loop. -/
def step (cfg : Config) : Outcome Config (SimResult Simulator) :=
  match cfg.rest with
  | none =>
    match cfg.sim.findBb with
    | .error why => .stop (.error why)
    -- The block's first entry is the next one to execute.
    | .ok (bb, sim) => .next ⟨sim, some bb.instrs⟩
  -- The last entry went on to one that does not exist.
  | some [] => .stop (.error .pastBlockEnd)
  | some (instr :: rest) =>
    match dispatch instr.id with
    | none => .stop (.error .nullHandler)
    | some handler =>
      match handler.exec cfg.sim instr with
      | .error why => .stop (.error why)
      | .ok (.next, sim) => .next ⟨sim, some rest⟩
      | .ok (.ret status, sim) => ofStatus (fun sim => ⟨sim, none⟩) status sim

/-- The first point of a simulation. -/
def start (sim : Simulator) (startPc : VirtAddr) : Config := ⟨sim.start startPc, none⟩

end Config

end RiscvSim

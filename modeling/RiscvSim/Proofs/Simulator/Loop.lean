import RiscvSim.Simulator.Step

/-! The simulation loop is the repetition of its steps. -/

namespace RiscvSim

open Transition

namespace Config

variable {cfg : Config} {sim after : Simulator}

/-- The ways in which a step goes on. -/
inductive Next (cfg : Config) : Config → Prop where
  /-- A block was found. -/
  | found {bb : Bb} {sim : Simulator} :
    cfg.rest = none → cfg.sim.findBb = .ok (bb, sim) → Next cfg ⟨sim, some bb.instrs⟩
  /-- A handler called the next one. -/
  | called {instr : Instr} {rest : List Instr} {handler : Handler} {sim : Simulator} :
    cfg.rest = some (instr :: rest) → dispatch instr.id = some handler →
    handler.exec cfg.sim instr = .ok (.next, sim) → Next cfg ⟨sim, some rest⟩
  /-- A handler returned to the loop. -/
  | returned {instr : Instr} {rest : List Instr} {handler : Handler} {sim : Simulator} :
    cfg.rest = some (instr :: rest) → dispatch instr.id = some handler →
    handler.exec cfg.sim instr = .ok (.ret .ok, sim) → Next cfg ⟨sim, none⟩

/-- A step that goes on does so in one of these ways. -/
theorem step_next {after : Config} (next : step cfg = .next after) : Next cfg after := by
  obtain ⟨sim, rest⟩ := cfg
  unfold step at next
  -- A step goes on from a block boundary or from an entry, never from the end of a block.
  match rest with
  | none =>
    dsimp only at next
    split at next
    · cases next
    · cases next
      exact .found rfl (by assumption)
  | some [] => cases next
  | some (instr :: rest) =>
    dsimp only at next
    split at next
    · cases next
    · rename_i handler dispatched
      split at next
      · cases next
      · cases next
        exact .called rfl dispatched (by assumption)
      · -- A status that is returned ends the simulation unless it is ok.
        rename_i status returned executed
        unfold ofStatus at next
        split at next
        · cases next
        · split at next
          · cases next
          · rename_i ok
            cases next
            rw [not_not.mp ok] at executed
            exact .returned rfl dispatched executed

/-- The ways in which a step stops. -/
inductive Stop (cfg : Config) : SimResult Simulator → Prop where
  /-- No block could be fetched. -/
  | unfetched {why : Abort} :
    cfg.rest = none → cfg.sim.findBb = .error why → Stop cfg (.error why)
  /-- The block has no more entries. -/
  | pastEnd : cfg.rest = some [] → Stop cfg (.error .pastBlockEnd)
  /-- An instruction has no handler. -/
  | missing {instr : Instr} {rest : List Instr} :
    cfg.rest = some (instr :: rest) → dispatch instr.id = none → Stop cfg (.error .nullHandler)
  /-- A handler aborted. -/
  | aborted {instr : Instr} {rest : List Instr} {handler : Handler} {why : Abort} :
    cfg.rest = some (instr :: rest) → dispatch instr.id = some handler →
    handler.exec cfg.sim instr = .error why → Stop cfg (.error why)
  /-- A handler ended the simulation. -/
  | exited {instr : Instr} {rest : List Instr} {handler : Handler} {sim : Simulator} :
    cfg.rest = some (instr :: rest) → dispatch instr.id = some handler →
    handler.exec cfg.sim instr = .ok (.ret .simExit, sim) → Stop cfg (.ok (.ok, sim))
  /-- A handler returned an error. -/
  | failed {instr : Instr} {rest : List Instr} {handler : Handler} {sim : Simulator}
    {status : SimStatus} :
    cfg.rest = some (instr :: rest) → dispatch instr.id = some handler →
    handler.exec cfg.sim instr = .ok (.ret status, sim) → status ≠ .ok → status ≠ .simExit →
    Stop cfg (.ok (status, sim))

/-- A step that stops does so in one of these ways. -/
theorem step_stop {result : SimResult Simulator} (stop : step cfg = .stop result) :
    Stop cfg result := by
  obtain ⟨sim, rest⟩ := cfg
  unfold step at stop
  -- The cases are those of the step function, which stops in each of them for its own reason.
  match rest with
  | none =>
    dsimp only at stop
    split at stop
    · cases stop
      exact .unfetched rfl (by assumption)
    · cases stop
  | some [] =>
    cases stop
    exact .pastEnd rfl
  | some (instr :: rest) =>
    dsimp only at stop
    split at stop
    · cases stop
      exact .missing rfl (by assumption)
    · rename_i handler dispatched
      split at stop
      · cases stop
        exact .aborted rfl dispatched (by assumption)
      · cases stop
      · -- The status that was returned tells an exit from a failure.
        rename_i status returned executed
        unfold ofStatus at stop
        split at stop
        · rename_i exit
          cases stop
          rw [exit] at executed
          exact .exited rfl dispatched executed
        · rename_i other
          split at stop
          · rename_i failed
            cases stop
            exact .failed rfl dispatched executed failed other
          · cases stop

/-- The steps of a block are the calls that its handlers make. -/
theorem run_dispatchFrom (entries : List Instr) (sim : Simulator) :
    ∃ n, run step (n + 1) ⟨sim, some entries⟩ =
      match sim.dispatchFrom entries with
      | .error why => .stop (.error why)
      | .ok (status, after) => ofStatus (fun sim => ⟨sim, none⟩) status after := by
  -- By induction on the entries, a handler that calls the next one takes one step.
  induction entries generalizing sim with
  | nil => exact ⟨0, rfl⟩
  | cons instr rest ih =>
    rw [Simulator.dispatchFrom]
    cases dispatched : dispatch instr.id with
    | none => exact ⟨0, by simp [run, step, dispatched]⟩
    | some handler =>
      dsimp only
      cases executed : handler.exec sim instr with
      | error why => exact ⟨0, by simp [run, step, dispatched, executed]⟩
      | ok result =>
        obtain ⟨flow, after⟩ := result
        cases flow with
        | next =>
          obtain ⟨n, later⟩ := ih after
          have first : step ⟨sim, some (instr :: rest)⟩ = .next ⟨after, some rest⟩ := by
            simp [step, dispatched, executed]
          exact ⟨n + 1, (run_of_next first).trans later⟩
        -- A handler that returns ends the block in one step.
        | ret status =>
          refine ⟨0, ?_⟩
          have first : step ⟨sim, some (instr :: rest)⟩ =
              ofStatus (fun sim => ⟨sim, none⟩) status after := by
            simp [step, dispatched, executed]
          exact (run_succ rfl).trans first

/-- A simulation comes through a state, or ends in it. -/
def Visits (first : Config) (after : Simulator) : Prop :=
  (∃ n cfg, run step n first = .next cfg ∧ cfg.sim = after) ∨
    ∃ n status, run step n first = .stop (.ok (status, after))

/-- What every step keeps holds in every state that a simulation visits. -/
theorem visits_invariant {first : Config} {k : Simulator → Prop} (initial : k first.sim)
    (next : ∀ cfg after, k cfg.sim → step cfg = .next after → k after.sim)
    (stop : ∀ cfg status after, k cfg.sim → step cfg = .stop (.ok (status, after)) → k after)
    (visits : first.Visits after) : k after := by
  have reached : ∀ n cfg, run step n first = .next cfg → k cfg.sim := fun n cfg led =>
    Transition.invariant (h := fun _ cfg => k cfg.sim) initial
      (fun _ before after _ _ kept step => next before after kept step) led
  rcases visits with ⟨n, cfg, led, rfl⟩ | ⟨n, status, stopped⟩
  · exact reached n cfg led
  · -- The run stopped in a last step from a state that it came to.
    obtain ⟨m, _, cfg, led, final⟩ := last_of_stop stopped
    exact stop cfg status after (reached m cfg led) final

end Config

namespace Simulator

/-- The result of iterations of the loop, unless it still goes on. -/
def finished : Except Abort (Option SimStatus × Simulator) → Option (SimResult Simulator)
  | .error why => some (.error why)
  | .ok (some status, sim) => some (.ok (status, sim))
  | .ok (none, _) => none

/-- Simulation from an address ends with a result. -/
def Returns (sim : Simulator) (startPc : VirtAddr) (result : SimResult Simulator) : Prop :=
  ∃ iterations, finished (sim.simulate startPc iterations) = some result

/-- An iteration of the loop is some steps to the next block, or to the end. -/
theorem run_simulateIter (sim : Simulator) :
    ∃ n, run Config.step (n + 1) ⟨sim, none⟩ =
      match sim.simulateIter with
      | .error why => .stop (.error why)
      | .ok (some status, after) => .stop (.ok (status, after))
      | .ok (none, after) => .next ⟨after, none⟩ := by
  unfold simulateIter
  cases found : sim.findBb with
  | error why => exact ⟨0, by simp [run, Config.step, found]⟩
  | ok result =>
    obtain ⟨bb, fetched⟩ := result
    have first : Config.step ⟨sim, none⟩ = .next ⟨fetched, some bb.instrs⟩ := by
      simp [Config.step, found]
    obtain ⟨n, executed⟩ := Config.run_dispatchFrom bb.instrs fetched
    -- The first step finds the block, and the others execute it.
    refine ⟨n + 1, (run_of_next first).trans (executed.trans ?_)⟩
    dsimp only
    cases fetched.dispatchFrom bb.instrs with
    | error why => rfl
    | ok result =>
      dsimp only [Config.ofStatus]
      split
      · rfl
      · split <;> rfl

/-- The loop ends with a result exactly when its steps do. -/
theorem simulateLoop_iff (sim : Simulator) (result : SimResult Simulator) :
    (∃ iterations, finished (sim.simulateLoop iterations) = some result) ↔
      ∃ n, run Config.step n ⟨sim, none⟩ = .stop result := by
  constructor
  · -- By induction on the iterations, each of which is some steps.
    rintro ⟨iterations, ended⟩
    induction iterations generalizing sim with
    | zero => cases ended
    | succ iterations ih =>
      obtain ⟨n, iteration⟩ := sim.run_simulateIter
      unfold simulateLoop at ended
      split at iteration <;> rename_i same <;> rw [same] at ended <;> dsimp only at ended
      · cases ended
        exact ⟨_, iteration⟩
      · cases ended
        exact ⟨_, iteration⟩
      · obtain ⟨m, later⟩ := ih _ ended
        exact ⟨n + 1 + m, (run_add m iteration).trans later⟩
  · rintro ⟨n, stopped⟩
    -- By induction on the number of steps, of which every iteration takes some.
    induction n using Nat.strongRecOn generalizing sim with
    | ind n ih =>
      obtain ⟨k, iteration⟩ := sim.run_simulateIter
      by_cases within : n ≤ k + 1
      · have ended := run_stop_add (k + 1 - n) stopped
        rw [Nat.add_sub_cancel' within, iteration] at ended
        refine ⟨1, ?_⟩
        unfold simulateLoop
        -- The run ended inside this iteration, so the iteration did not go on.
        cases iterated : sim.simulateIter with
        | error why =>
          rw [iterated] at ended
          cases ended
          rfl
        | ok result =>
          obtain ⟨status, after⟩ := result
          rw [iterated] at ended
          cases status <;> cases ended
          rfl
      · -- More steps are left than the iteration takes, so it went on or ended early.
        have split : n = k + 1 + (n - (k + 1)) := by omega
        split at iteration <;> rename_i same
        · rw [split, run_stop_add _ iteration] at stopped
          cases stopped
          exact ⟨1, by unfold simulateLoop; rw [same]; rfl⟩
        · rw [split, run_stop_add _ iteration] at stopped
          cases stopped
          exact ⟨1, by unfold simulateLoop; rw [same]; rfl⟩
        · rw [split, run_add _ iteration] at stopped
          obtain ⟨iterations, ended⟩ := ih _ (by omega) _ stopped
          exact ⟨iterations + 1, by unfold simulateLoop; rw [same]; exact ended⟩

/-- Simulation ends with a result exactly when the steps from its start do. -/
theorem returns_iff (sim : Simulator) (startPc : VirtAddr) (result : SimResult Simulator) :
    sim.Returns startPc result ↔
      ∃ n, run Config.step n (Config.start sim startPc) = .stop result :=
  simulateLoop_iff _ _

end Simulator

end RiscvSim

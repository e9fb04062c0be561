import RiscvSim.Proofs.Simulator.Dispatch
import RiscvSim.Proofs.Simulator.Handlers
import RiscvSim.Proofs.Simulator.Outcomes

/-! An instruction that fails leaves the state that the last retired instruction left. -/

namespace RiscvSim

open Transition

/-- A handler that ends so has retired its instruction. -/
def Flow.retires (handler : Handler) : Flow → Bool
  | .next => true
  | .ret status => handler.isExit || status == .ok && !handler.isStatus

/-- The step executes an instruction that retires. -/
def Config.retires (cfg : Config) : Bool :=
  match cfg.rest with
  | some (instr :: _) =>
    match dispatch instr.id with
    | none => false
    | some handler =>
      match handler.exec cfg.sim instr with
      | .error _ => false
      | .ok (flow, _) => flow.retires handler
  | _ => false

namespace Simulator

variable {sim after : Simulator} {n : Nat}

/-- The registers, the counters and the memory are the same. -/
def SameState (sim other : Simulator) : Prop :=
  sim.toCore = other.toCore ∧ sim.physMemory = other.physMemory

/-- Loading changes translation caches alone. -/
theorem loadInt_frame {access : LoadAccess} {va : VirtAddr} {res : LoadResult n}
    (result : sim.loadInt n access va = .ok (res, after)) :
    after.SameState sim ∧ after.bbCache = sim.bbCache := by
  cases loadInt_ends result with
  | read =>
    -- The only change is to the cache that serves the access.
    cases access <;> exact ⟨⟨rfl, rfl⟩, rfl⟩
  | _ => exact ⟨⟨rfl, rfl⟩, rfl⟩

/-- Storing keeps registers and blocks, and a store that fails changes nothing. -/
theorem storeInt_frame {va : VirtAddr} {value : BitVec (8 * n)} {status : SimStatus}
    (result : sim.storeInt n va value = .ok (status, after)) :
    after.toCore = sim.toCore ∧ after.bbCache = sim.bbCache ∧ (status ≠ .ok → after = sim) := by
  cases storeInt_ends result with
  -- A store that succeeds is none that fails.
  | hit => exact ⟨rfl, rfl, fun failed => absurd rfl failed⟩
  | written => exact ⟨rfl, rfl, fun failed => absurd rfl failed⟩
  | _ => exact ⟨rfl, rfl, fun _ => rfl⟩

/-- What a handler leaves behind. -/
structure ExecSpec (handler : Handler) (sim : Simulator) (flow : Flow) (after : Simulator) :
    Prop where
  bbCache : after.bbCache = sim.bbCache
  /-- Only some handlers go on to the next entry. -/
  next : flow = .next → handler.ends = false ∧ after.pc = sim.pc + 4
  /-- A handler that returns does not store. -/
  memory : flow ≠ .next → after.physMemory = sim.physMemory
  /-- A retired instruction is counted. -/
  retired : flow.retires handler = true → after.icount = sim.icount + 1
  /-- Any other changes neither registers nor memory. -/
  failed : flow.retires handler = false → after.SameState sim

/-- An instruction that goes on to the next one after changing registers alone. -/
theorem ExecSpec.of_next {handler : Handler} {written : Core} (goesOn : handler.ends = false)
    (frame : after.bbCache = sim.bbCache) (icount : written.icount = sim.icount)
    (pc : written.pc = sim.pc) :
    ExecSpec handler sim .next { after with toCore := written.incr } where
  bbCache := frame
  next _ := ⟨goesOn, congrArg (· + 4) pc⟩
  memory never := (never rfl).elim
  retired _ := congrArg (· + 1) icount
  failed never := nomatch never

/-- An instruction that returns an error without a change of registers or memory. -/
theorem ExecSpec.of_failure {handler : Handler} {status : SimStatus}
    (goesOn : handler.isExit = false) (failed : status ≠ .ok ∨ handler.isStatus = true)
    (frame : after.bbCache = sim.bbCache) (same : after.SameState sim) :
    ExecSpec handler sim (.ret status) after where
  bbCache := frame
  next never := nomatch never
  memory _ := same.2
  retired done := by
    -- A return that is not an exit retires only with ok, and only outside of the status handler.
    simp only [Flow.retires, goesOn, Bool.false_or, Bool.and_eq_true, beq_iff_eq,
      Bool.not_eq_true'] at done
    rcases failed with failed | status
    · exact absurd done.1 failed
    · exact absurd (status.symm.trans done.2) (by decide)
  failed _ := same

/-- An instruction that retires and returns. -/
theorem ExecSpec.of_jump {handler : Handler} {status : SimStatus} {written : Core}
    {newPc : VirtAddr} (retires : Flow.retires handler (.ret status) = true)
    (icount : written.icount = sim.icount) :
    ExecSpec handler sim (.ret status) { sim with toCore := written.jumpTo newPc } where
  bbCache := rfl
  next never := nomatch never
  memory _ := rfl
  retired _ := congrArg (· + 1) icount
  failed never := absurd (retires.symm.trans never) (by decide)

/-- Handlers keep their specification. -/
theorem exec_spec {handler : Handler} {instr : Instr} {flow : Flow}
    (result : handler.exec sim instr = .ok (flow, after)) :
    ExecSpec handler sim flow after := by
  -- One case for each way in which a handler ends.
  cases exec_ends result with
  | status => exact .of_failure rfl (.inr rfl) rfl ⟨rfl, rfl⟩
  | exit => exact .of_jump rfl rfl
  | computed _ write =>
    -- Writing a register keeps the counters.
    obtain ⟨gprFile, rfl⟩ := Core.write_frame write
    exact .of_next rfl rfl rfl rfl
  | unloaded _ load failed =>
    obtain ⟨same, blocks⟩ := loadInt_frame load
    exact .of_failure rfl (.inl failed) blocks same
  | loaded _ load _ write =>
    obtain ⟨⟨core, _⟩, blocks⟩ := loadInt_frame load
    obtain ⟨gprFile, rfl⟩ := Core.write_frame write
    exact .of_next rfl blocks (congrArg Core.icount core :) (congrArg Core.pc core :)
  | unstored _ _ store failed =>
    -- A store that fails has changed nothing.
    rw [(storeInt_frame store).2.2 failed]
    exact .of_failure rfl (.inl failed) rfl ⟨rfl, rfl⟩
  | stored _ _ store =>
    obtain ⟨core, blocks, _⟩ := storeInt_frame store
    exact .of_next rfl blocks (congrArg Core.icount core) (congrArg Core.pc core)
  | astray => exact .of_failure rfl (.inl (by decide)) rfl ⟨rfl, rfl⟩
  | jumped _ _ write =>
    obtain ⟨gprFile, rfl⟩ := Core.write_frame write
    exact .of_jump rfl rfl
  | refused => exact .of_failure rfl (.inl (by decide)) rfl ⟨rfl, rfl⟩
  | taken => exact .of_jump rfl rfl
  -- A branch that is not taken retires as well.
  | untaken => exact .of_jump rfl rfl

end Simulator

/-- What fetching a word keeps, decoding a block keeps. -/
theorem Bb.Updates.keeps {σ : Type} {fetch : σ → Except Abort (FetchResult × σ)}
    {k : σ → Prop} (kept : ∀ state res after, k state → fetch state = .ok (res, after) → k after)
    {stale entries : List Instr} {state after : σ} (start : k state)
    (decoded : Updates fetch stale state entries after) : k after := by
  -- By induction on the words of the block, each fetch keeps it.
  induction decoded with
  | nil => exact start
  | full => exact start
  | fault fetched => exact kept _ _ _ start fetched
  | last fetched => exact kept _ _ _ start fetched
  | more fetched _ _ _ ih => exact ih (kept _ _ _ start fetched)

/-- A block that is updated moves to an address. -/
theorem Bb.update_keeps {σ : Type} {fetch : σ → Except Abort (FetchResult × σ)} {k : σ → Prop}
    (kept : ∀ state res after, k state → fetch state = .ok (res, after) → k after)
    {bb updated : Bb} {virtAddr : VirtAddr} {state after : σ} (start : k state)
    (result : bb.update virtAddr fetch state = .ok (updated, after)) :
    updated.virtAddr = virtAddr ∧ k after := by
  unfold update at result
  split at result
  · cases result
  · rename_i decoded
    cases result
    exact ⟨rfl, (updates_of_updateFrom decoded).keeps kept start⟩

namespace Simulator

variable {sim after : Simulator}

/-- The block that is found is at the program counter, and it is cached. -/
theorem findBb_spec {bb : Bb} (found : sim.findBb = .ok (bb, after)) :
    bb.virtAddr = sim.pc ∧ after.bbCache.find sim.pc = bb ∧ after.SameState sim := by
  unfold findBb at found
  -- The block was decoded anew, or it was in the cache.
  dsimp only at found
  split at found
  · split at found
    · cases found
    · rename_i other address fetched updated
      cases found
      -- Fetching changes the fetch cache alone.
      obtain ⟨virtAddr, same⟩ := Bb.update_keeps (k := fun state => state.2.SameState sim)
        (fun state res later start fetched => by
          unfold fetch at fetched
          dsimp only at fetched
          split at fetched
          · cases fetched
          · rename_i loaded
            cases fetched
            obtain ⟨⟨core, memory⟩, _⟩ := loadInt_frame loaded
            exact ⟨core.trans start.1, memory.trans start.2⟩) ⟨rfl, rfl⟩ updated
      refine ⟨virtAddr, ?_, same⟩
      rw [← show fetched.pc = sim.pc from congrArg Core.pc same.1]
      exact BbCache.find_set _ _ _
  · rename_i hit
    cases found
    exact ⟨not_not.mp hit, rfl, rfl, rfl⟩

end Simulator

namespace Config

/-- The current entries are those of a cached block, from the one at the program counter on. -/
def InBlock (cfg : Config) : Prop :=
  ∀ entries, cfg.rest = some entries → ∃ virtAddr j, entries =
    (cfg.sim.bbCache.find virtAddr).instrs.drop j ∧
      (cfg.sim.bbCache.find virtAddr).virtAddr = virtAddr ∧
      cfg.sim.pc = virtAddr + 4 * BitVec.ofNat 64 j

/-- The instructions retired on the way to a state, as the simulator counts them. -/
structure Counted (first : Config) (n : Nat) (cfg : Config) : Prop where
  /-- Retired instructions are counted. -/
  icount : cfg.sim.icount = count step retires n first
  /-- The program counter is at the current entry. -/
  place : cfg.InBlock
  /-- Registers and memory are those that the last retired instruction left, if there was one. -/
  left : ∃ m prev, m ≤ n ∧ run step m first = .next prev ∧ cfg.sim.SameState prev.sim ∧
    (m = 0 ∨ ∃ before, run step (m - 1) first = .next before ∧ before.retires = true ∧
      step before = .next prev) ∧
    ∀ k between, m ≤ k → k < n → run step k first = .next between → between.retires = false

/-- A step keeps the place in the block. -/
theorem inBlock_step {cfg after : Config} (inBlock : cfg.InBlock)
    (next : step cfg = .next after) : after.InBlock := by
  intro entries here
  cases step_next next with
  -- A block that was found is at the program counter, with its first entry next.
  | found _ found =>
    cases here
    obtain ⟨address, cached, same⟩ := Simulator.findBb_spec found
    refine ⟨cfg.sim.pc, 0, by rw [cached]; rfl, by rw [cached]; exact address, ?_⟩
    rw [show (_ : Simulator).pc = cfg.sim.pc from congrArg Core.pc same.1]
    simp
  | called current dispatched executed =>
    cases here
    -- The entry that was executed is left behind, and the counter moves by one word.
    obtain ⟨virtAddr, j, same, cached, pc⟩ := inBlock _ current
    have spec := Simulator.exec_spec executed
    refine ⟨virtAddr, j + 1, ?_, ?_, ?_⟩
    · rw [spec.bbCache, ← List.drop_drop, ← same, List.drop_one, List.tail_cons]
    · rw [spec.bbCache]
      exact cached
    · rw [(spec.next rfl).2, pc]
      simp [BitVec.ofNat_add, BitVec.mul_add, BitVec.add_assoc]
  | returned => cases here

/-- A step counts the instruction that it retires, and does nothing else to the state otherwise. -/
theorem step_retires {cfg after : Config} (next : step cfg = .next after) :
    if cfg.retires then after.sim.icount = cfg.sim.icount + 1
    else after.sim.SameState cfg.sim := by
  cases step_next next with
  | found here found =>
    rw [retires, here]
    exact (Simulator.findBb_spec found).2.2
  | called here dispatched executed =>
    simp only [retires, here, dispatched, executed]
    exact (Simulator.exec_spec executed).retired rfl
  | @returned instr rest handler sim here dispatched executed =>
    have spec := Simulator.exec_spec executed
    simp only [retires, here, dispatched, executed]
    split
    · rename_i done
      exact spec.retired done
    · rename_i undone
      exact spec.failed (Bool.eq_false_iff.mpr undone)

/-- Along a run the retired instructions are counted. -/
theorem counted_of_run {sim : Simulator} {startPc : VirtAddr} {n : Nat} {cfg : Config}
    (led : run step n (start sim startPc) = .next cfg) : Counted (start sim startPc) n cfg := by
  refine Transition.invariant (h := Counted (start sim startPc)) ?_ ?_ led
  · -- At the start nothing was counted, and the start itself left the state.
    exact ⟨rfl, nofun, 0, start sim startPc, Nat.le_refl 0, rfl, ⟨rfl, rfl⟩, .inl rfl,
      fun k between lower upper => absurd upper (Nat.not_lt.mpr lower)⟩
  · intro m before after _ reached counted next
    obtain ⟨icount, place, k, prev, bound, ledPrev, same, last, quiet⟩ := counted
    have step := step_retires next
    have reachedAfter := (run_succ reached).trans next
    refine ⟨?_, inBlock_step place next, ?_⟩
    · -- The count of the run goes up exactly by a step that retires.
      rw [count_succ reached, ← icount]
      split at step <;> rename_i retires <;> simp only [retires]
      · exact step
      · exact congrArg Core.icount step.1
    · split at step
      · -- The instruction that retired is the last one.
        rename_i retires
        exact ⟨m + 1, after, Nat.le_refl _, reachedAfter, ⟨rfl, rfl⟩,
          .inr ⟨before, reached, retires, next⟩,
          fun j between lower upper => absurd upper (Nat.not_lt.mpr lower)⟩
      · rename_i undone
        -- The state is still the one that the last retired instruction left.
        refine ⟨k, prev, Nat.le_succ_of_le bound, ledPrev,
          ⟨step.1.trans same.1, step.2.trans same.2⟩, last, ?_⟩
        intro j between lower upper led
        rcases Nat.lt_succ_iff_lt_or_eq.mp upper with earlier | rfl
        · exact quiet j between lower earlier led
        · cases reached.symm.trans led
          exact Bool.eq_false_iff.mpr undone

/-- Failures are precise in every simulation from an address. -/
structure PreciseFailure (sim : Simulator) (startPc : VirtAddr) : Prop where
  /-- At every point retired instructions are counted, and the last one left the state. -/
  counted : ∀ n cfg, run step n (start sim startPc) = .next cfg →
    Counted (start sim startPc) n cfg
  /-- An instruction that fails leaves the state as it was. -/
  failed : ∀ n cfg status after, run step n (start sim startPc) = .next cfg →
    step cfg = .stop (.ok (status, after)) → status ≠ .ok → after.SameState cfg.sim
  /-- An environment call retires and stops. -/
  exit : ∀ n cfg instr rest, run step n (start sim startPc) = .next cfg →
    cfg.rest = some (instr :: rest) → instr.id = .ecall →
    step cfg = .stop (.ok (.ok, { cfg.sim with toCore := cfg.sim.toCore.incr }))
  /-- What the simulation returns is what its last instruction returned. -/
  returned : ∀ status after, sim.Returns startPc (.ok (status, after)) →
    ∃ n cfg, run step n (start sim startPc) = .next cfg ∧ step cfg = .stop (.ok (status, after))

/-- A failing instruction leaves registers, memory and counters as the last retired one did. -/
theorem precise_failure (sim : Simulator) (startPc : VirtAddr) : PreciseFailure sim startPc where
  counted _ _ := counted_of_run
  failed n cfg status after _ stop failed := by
    -- A simulation stops with an exit or with a failure.
    cases step_stop stop with
    | exited => exact absurd rfl failed
    | failed _ dispatched executed failed other =>
      have spec := Simulator.exec_spec executed
      refine spec.failed ?_
      have kind := (simInstr_kind (simInstr_of_dispatch dispatched)).2.2
      rename_i handler _
      cases handler with
      | exit =>
        cases executed
        exact absurd rfl other
      -- No other handler counts a failure as retired.
      | _ => simp [Flow.retires, Handler.isExit, failed]
  exit n cfg instr rest _ here ecall := by
    obtain ⟨sim, entries⟩ := cfg
    cases here
    have handler : dispatch instr.id = some .exit := by
      rw [ecall, dispatch_eq]
      rfl
    simp only [step, handler]
    rfl
  returned status after returns := by
    obtain ⟨n, stopped⟩ := (Simulator.returns_iff _ _ _).mp returns
    -- The last step of the run is the one that stopped.
    obtain ⟨m, _, cfg, led, stop⟩ := last_of_stop stopped
    exact ⟨m, cfg, led, stop⟩

end Config

end RiscvSim

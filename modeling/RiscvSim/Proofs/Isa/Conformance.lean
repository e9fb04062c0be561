import RiscvSim.Proofs.Isa.Execute
import RiscvSim.Proofs.Simulator.FlatRefinement

/-! An interpreter without tables runs programs as a hart of the instruction set does. -/

namespace RiscvSim

open Rv64i Transition

/-- The identifiers of loads and stores. -/
def InstrId.accesses : List (InstrId × BitVec 7 × BitVec 3) :=
  Load.all.map (fun load => (.ofLoad load, 0x03, load.code)) ++
    Store.all.map fun store => (.ofStore store, 0x23, store.code)

/-- The tree leads no word to a load or a store that has other codes. -/
theorem access_leaf : ∀ path ∈ decodertree.paths 32, ∀ access ∈ InstrId.accesses,
    path.2 = access.1 → (Pattern.merge path.1).implies
      ⟨rType 0 0 0 7 0 0x7f, rType 0 0 0 access.2.2 0 access.2.1⟩ = true := by
  decide +kernel

/-- A handler that loads or stores is that of a load or a store. -/
theorem access_of_simInstr {id : InstrId} {handler : Handler} (found : simInstr id = some handler)
    (accesses : (∃ n widen, handler = .load n widen) ∨ ∃ n, handler = .store n) :
    ∃ access ∈ InstrId.accesses, id = access.1 := by
  -- The identifiers of all other handlers are left out.
  unfold simInstr at found
  split at found <;> cases found <;>
    first
    | decide
    | rcases accesses with ⟨_, _, same⟩ | ⟨_, same⟩ <;> cases same

/-- No load and no store is a status. -/
theorem access_ne_status : ∀ access ∈ InstrId.accesses, access.1 ≠ .simStatusInstr := by decide

/-- A word that decodes to a load or a store is one of the instruction set. -/
theorem decode_of_access {word : InstrCode} {access : InstrId × BitVec 7 × BitVec 3}
    (member : access ∈ InstrId.accesses) (decoded : (Instr.decode word).id = access.1) :
    Rv64i.decode word ≠ none := by
  obtain ⟨tests, path, holds⟩ :=
    (handleNode_eq_some_iff _ _).mp ((decode_id_iff word (access_ne_status _ member)).mp decoded)
  obtain ⟨_, code, op⟩ := (matches_codes_iff _ _ _ _ _ _ _).mp
    (Pattern.matches_of_implies (access_leaf _ path _ member rfl) (Pattern.merge_matches holds))
  have wholeCode (value : BitVec 3) : value &&& 7 = value := BitVec.and_allOnes
  have whole (value : BitVec 7) : value &&& 0x7f = value := BitVec.and_allOnes
  rw [wholeCode] at code
  rw [whole] at op
  -- There is a load or a store with the codes of the word.
  rcases List.mem_append.mp member with loads | stores
  · obtain ⟨load, _, rfl⟩ := List.mem_map.mp loads
    simp only [Rv64i.decode, op, code]
    cases load <;> exact Option.some_ne_none _
  · obtain ⟨store, _, rfl⟩ := List.mem_map.mp stores
    simp only [Rv64i.decode, op, code]
    cases store <;> exact Option.some_ne_none _

/-- A handler that refuses an instruction as unknown is that of a status, a load or a store. -/
theorem Handler.of_refused {σ : Type} [Machine σ] {handler : Handler} {sim after : σ}
    {instr : Instr}
    (refused : handler.exec sim instr = .ok (.ret .simNotImplementedInstr, after)) :
    handler = .status ∨ (∃ n widen, handler = .load n widen) ∨ ∃ n, handler = .store n := by
  cases handler with
  | status => exact .inl rfl
  | load n widen => exact .inr (.inl ⟨n, widen, rfl⟩)
  | store n => exact .inr (.inr ⟨n, rfl⟩)
  -- The others go on, end the program well or refuse the target of a transfer.
  | exit => cases refused
  | compute res =>
    simp only [Handler.exec, simCompute] at refused
    split at refused
    · cases refused
    · split at refused <;> cases refused
  | jump target =>
    simp only [Handler.exec, simJump] at refused
    split at refused
    · cases refused
    · split at refused
      · cases refused
      · split at refused <;> cases refused
  | branch cmp =>
    simp only [Handler.exec, simCondBranch] at refused
    split at refused
    · cases refused
    · split at refused
      · cases refused
      · split at refused
        · split at refused <;> cases refused
        · cases refused

/-- A word of no instruction is refused exactly when it decodes to a status. -/
theorem status_of_refused {σ : Type} [Machine σ] {sim after : σ} {word : InstrCode}
    (unknown : Rv64i.decode word = none)
    (refused : call sim (Instr.decode word) = .ok (.ret .simNotImplementedInstr, after)) :
    (Instr.decode word).id = .simStatusInstr := by
  unfold call at refused
  cases dispatched : dispatch (Instr.decode word).id with
  | none =>
    rw [dispatched] at refused
    cases refused
  | some handler =>
    rw [dispatched] at refused
    have found := simInstr_of_dispatch dispatched
    rcases Handler.of_refused refused with rfl | accesses
    · exact beq_iff_eq.mp (simInstr_kind found).2.1.symm
    · obtain ⟨access, member, same⟩ := access_of_simInstr found accesses
      exact absurd unknown (decode_of_access member same)

namespace Flat

variable {w : Nat} (first : Flat w) (hart : Rv64i.Hart w)

/-- The interpreter is right about the word at the program counter.

The word is one of the instruction set that the handlers compute, or the decoder finds no
instruction for it either.
-/
def Tame : Prop :=
  ∀ word, hart.read first.denied .fetch .misalignedFetch 4 hart.pc = .ok word →
    match Rv64i.decode word with
    | some instruction => Faithful hart.regs instruction
    | none => (Instr.decode word).id = .simStatusInstr

/-- What the interpreter makes of what a hart comes to. -/
def outcome : Outcome (Rv64i.Hart w) (Ending SimStatus × Rv64i.Hart w) →
    Outcome (Flat w) (SimResult (Flat w))
  | .next hart => .next (first.withHart hart)
  | .stop (ending, hart) => .stop (.ok (.ofEnding ending, first.withHart hart))

/-- A word that is fetched is the one that the hart reads. -/
theorem fetchAt_withHart :
    (first.withHart hart).fetchAt (first.withHart hart).pc =
      match hart.read first.denied .fetch .misalignedFetch 4 hart.pc with
      | .error trap => .ok ⟨.ofTrap trap, 0⟩
      | .ok word => .ok ⟨.ok, word⟩ := by
  have read := first.load_withHart hart (.inr (.inr (.inl rfl))) .fetch .misalignedFetch rfl hart.pc
  rw [fetchAt, show AccessType.fetch = .ofAccess .fetch from rfl,
    show (first.withHart hart).pc = hart.pc from rfl, read]
  cases hart.read first.denied .fetch .misalignedFetch 4 hart.pc <;> rfl

/-- What the interpreter does with a word that it could fetch. -/
theorem step_of_fetched {word : BitVec 32}
    (fetched : hart.read first.denied .fetch .misalignedFetch 4 hart.pc = .ok word) :
    step (first.withHart hart) =
      match call (first.withHart hart) (Instr.decode word) with
      | .error why => .stop (.error why)
      | .ok (.next, flat) => .next flat
      | .ok (.ret status, flat) => Config.ofStatus id status flat := by
  have here := first.fetchAt_withHart hart
  rw [fetched] at here
  simp only [step, here]
  rfl

/-- A trap of an instruction has a status that stops the program. -/
theorem ofTrap_stops_execute (denies : first.Denies) {instruction : Instruction}
    {trap : Trap SimStatus} {last : Rv64i.Hart w}
    (trapped : hart.execute first.denied instruction = .stop (.trap trap, last)) :
    SimStatus.ofTrap trap ≠ .ok ∧ SimStatus.ofTrap trap ≠ .simExit := by
  cases instruction with
  | compute => cases trapped
  | auipc => cases trapped
  | shiftReg => cases trapped
  | load =>
    simp only [Rv64i.Hart.execute] at trapped
    split at trapped <;> cases trapped
    exact first.ofTrap_stops hart denies rfl (by assumption)
  | store =>
    simp only [Rv64i.Hart.execute] at trapped
    split at trapped <;> cases trapped
    exact first.ofTrap_stops_write hart denies (by assumption)
  | transfer =>
    simp only [Rv64i.Hart.execute] at trapped
    split at trapped <;> cases trapped
    decide
  | fence => cases trapped
  | ecall => cases trapped
  | ebreak =>
    cases trapped
    decide

/-- The trap that a step ends with has a status that stops the program and is no success. -/
theorem ofTrap_stops_step (denies : first.Denies) {trap : Trap SimStatus} {last : Rv64i.Hart w}
    (stopped : hart.step first.denied = .stop (.trap trap, last)) :
    SimStatus.ofTrap trap ≠ .ok ∧ SimStatus.ofTrap trap ≠ .simExit := by
  unfold Rv64i.Hart.step at stopped
  split at stopped
  · cases stopped
    exact first.ofTrap_stops hart denies rfl (by assumption)
  · split at stopped
    · cases stopped
      decide
    · exact first.ofTrap_stops_execute hart denies stopped

/-- In a tame state the interpreter takes the step of the hart. -/
theorem step_withHart (denies : first.Denies) (tame : first.Tame hart) :
    step (first.withHart hart) = first.outcome (hart.step first.denied) := by
  unfold Rv64i.Hart.step
  cases fetched : hart.read first.denied .fetch .misalignedFetch 4 hart.pc with
  | error trap =>
    have here := first.fetchAt_withHart hart
    rw [fetched] at here
    simp only [step, here, if_pos (first.ofTrap_stops hart denies rfl fetched).1]
    rfl
  | ok word =>
    rw [first.step_of_fetched hart fetched]
    dsimp only
    have faithful := tame word fetched
    cases held : Rv64i.decode word with
    | some instruction =>
      rw [held] at faithful
      rw [first.call_withHart hart denies (represents_of_decode held) faithful]
      dsimp only
      cases executed : hart.execute first.denied instruction with
      | next after => cases instruction <;> rfl
      | stop result =>
        obtain ⟨ending, last⟩ := result
        cases ending with
        | exit => rfl
        | trap trap =>
          have stops := first.ofTrap_stops_execute hart denies executed
          simp only [Flat.executed, SimStatus.returned, Config.ofStatus, if_neg stops.2, ne_eq,
            stops.1, not_false_eq_true, if_true]
          rfl
    | none =>
      -- A word of no instruction is decoded to a status.
      rw [held] at faithful
      rw [decode_of_status faithful, call_statusInstr]
      rfl

/-- Only in a tame state it does. -/
theorem tame_of_step (stepped : step (first.withHart hart) = first.outcome (hart.step first.denied)) :
    first.Tame hart := by
  intro word fetched
  rw [first.step_of_fetched hart fetched] at stepped
  simp only [Rv64i.Hart.step, fetched] at stepped
  cases held : Rv64i.decode word with
  | none =>
    -- The status of the hart's trap comes from a status that was decoded.
    rw [held] at stepped
    cases called : call (first.withHart hart) (Instr.decode word) with
    | error why =>
      rw [called] at stepped
      cases stepped
    | ok result =>
      obtain ⟨flow, after⟩ := result
      rw [called] at stepped
      cases flow with
      | next => cases stepped
      | ret status =>
        have refused : status = .simNotImplementedInstr := by
          simp only [Config.ofStatus] at stepped
          split at stepped
          · cases stepped
          · split at stepped
            · cases stepped
              rfl
            · cases stepped
        rw [refused] at called
        exact status_of_refused held called
  | some instruction =>
    rw [held] at stepped
    have decoded := represents_of_decode held
    cases instruction with
    | compute => trivial
    | load => trivial
    | store => trivial
    | transfer => trivial
    | ecall => trivial
    | fence =>
      -- Both have a null pointer in the table.
      have id : (Instr.decode word).id = .fence := decoded.1
      rw [call, id, show dispatch .fence = none from rfl] at stepped
      cases stepped
    | ebreak =>
      have id : (Instr.decode word).id = .ebreak := decoded
      rw [call, id, show dispatch .ebreak = none from rfl] at stepped
      cases stepped
    | auipc rd imm =>
      obtain ⟨id, dest, value⟩ := decoded
      have computed : auipcRes (Machine.core (first.withHart hart)) (Instr.decode word) =
          .ok ((imm ++ 0#12).setWidth 64 + hart.pc) := by
        rw [auipcRes, value]
        rfl
      have called : call (first.withHart hart) (Instr.decode word) = .ok (.next, first.withHart
          (hart.retire (hart.regs.write rd ((imm ++ 0#12).setWidth 64 + hart.pc))
            (hart.pc + 4))) := by
        rw [call, id, show dispatch .auipc = some (.compute auipcRes) from rfl]
        exact Machine.simCompute_eq dest computed
      rw [called] at stepped
      -- The registers that are left have to be the same.
      have same : hart.regs.write rd ((imm ++ 0#12).setWidth 64 + hart.pc) =
          hart.regs.write rd (auipcResult hart.pc imm) := by
        injection stepped with stepped
        exact congrArg (fun flat : Flat w => flat.toCore.regs) stepped
      exact ((Registers.write_inj_iff _ _ _ _).mp same).imp_right (upper_setWidth_iff imm _).mp
    | shiftReg width op rd rs1 rs2 =>
      -- A count from the width upwards is undefined.
      by_contra large
      obtain ⟨res, shape, computed⟩ := shiftRegHandler_result width op
        (Machine.core (first.withHart hart)) decoded.2.2.1 decoded.2.2.2
      have undefined : ¬shiftCount width (hart.regs.value rs2) < width.bits := by
        rw [shiftCount_eq]
        exact large
      rw [regs_withHart, shiftBy, if_neg undefined] at computed
      rw [call, decoded.1, dispatch_shiftReg, shape] at stepped
      simp only [Handler.exec, simCompute, computed] at stepped
      cases stepped

/-- A tame run is one of the hart. -/
theorem run_withHart (denies : first.Denies) {n : Nat}
    (tame : ∀ m after, m < n → run (Rv64i.Hart.step first.denied) m hart = .next after →
      first.Tame after) :
    run step n (first.withHart hart) =
      first.outcome (run (Rv64i.Hart.step first.denied) n hart) := by
  -- By induction on the length, where the rest of the run starts behind the first step.
  induction n generalizing hart with
  | zero => rfl
  | succ n ih =>
    have stepped := first.step_withHart hart denies (tame 0 hart (Nat.succ_pos n) rfl)
    cases next : hart.step first.denied with
    | stop result =>
      rw [next] at stepped
      rw [run_of_stop next, run_of_stop stepped]
      rfl
    | next after =>
      rw [next] at stepped
      rw [run_of_next next, run_of_next stepped]
      refine ih after fun m later bound led => ?_
      exact tame (m + 1) later (Nat.succ_lt_succ bound) ((run_of_next next).trans led)

/-- The interpreter does in every run what the hart does. -/
def Conforms : Prop :=
  ∀ n, run step n (first.withHart hart) =
    first.outcome (run (Rv64i.Hart.step first.denied) n hart)

/-- The hart stays in tame states. -/
def StaysTame : Prop :=
  ∀ n after, run (Rv64i.Hart.step first.denied) n hart = .next after → first.Tame after

end Flat

/-- What the tables deny stops a program. -/
theorem Plain.denies_flat (w : Nat) (plain : Plain) : (plain.flat w).Denies := by
  intro accessType addr status denied
  simp only [flat] at denied
  cases reached : plain.reach accessType (addr.setWidth 64) with
  | ok pa =>
    rw [reached] at denied
    cases denied
  | error other =>
    rw [reached] at denied
    cases denied
    unfold reach at reached
    cases translated : plain.translateVa accessType (addr.setWidth 64) with
    | error why =>
      rw [translated] at reached
      cases reached
      decide
    | ok result =>
      obtain ⟨mmuStatus, pa⟩ := result
      simp only [translated] at reached
      -- A translation that fails does not end the program well, and neither does a missing page.
      split at reached
      · rename_i failed
        cases reached
        exact ⟨failed, translate_ne_exit translated⟩
      · split at reached <;> cases reached
        decide

/-- The interpreter does in every run what the hart does exactly when the hart stays tame. -/
theorem Flat.conforms_iff {w : Nat} (first : Flat w) (hart : Rv64i.Hart w) (denies : first.Denies) :
    first.Conforms hart ↔ first.StaysTame hart := by
  constructor
  · intro same n after led
    -- The run that led to the state and the one that is a step longer differ by that step.
    have here := same n
    have there := same (n + 1)
    rw [led] at here
    rw [run_succ here, run_succ led] at there
    exact first.tame_of_step after there
  · exact fun tame n => first.run_withHart hart denies fun m after _ => tame m after

namespace Flat

variable {w : Nat} {first : Flat w} {hart : Rv64i.Hart w}

/-- The word at the program counter is one that the interpreter is right about. -/
def checkTame (first : Flat w) (hart : Rv64i.Hart w) : Bool :=
  match hart.read first.denied .fetch .misalignedFetch 4 hart.pc with
  | .error _ => true
  | .ok word =>
    match Rv64i.decode word with
    | some instruction => decide (Faithful hart.regs instruction)
    | none => (Instr.decode word).id == .simStatusInstr

/-- The check of a state is sound. -/
theorem tame_of_check (checked : first.checkTame hart = true) : first.Tame hart := by
  intro word read
  rw [checkTame, read] at checked
  dsimp only at checked
  cases held : Rv64i.decode word with
  | some instruction =>
    rw [held] at checked
    exact of_decide_eq_true checked
  | none =>
    rw [held] at checked
    exact eq_of_beq checked

/-- A run of the hart whose states were all checked stays tame. -/
theorem staysTame_of_checked (n : Nat)
    (stops : (run (Rv64i.Hart.step first.denied) n hart).stops = true)
    (checked : (visited (Rv64i.Hart.step first.denied) n hart).all first.checkTame = true) :
    first.StaysTame hart := fun _ _ led =>
  tame_of_check (check_of_visited stops checked led)

/-- A program of two blocks that loads and stores is interpreted as on a hart. -/
theorem conforms_program :
    (((Simulator.holdingProgram 0).start 0).plain.flat 64).Conforms
      (((Simulator.holdingProgram 0).start 0).plain.flat 64).rv64i :=
  (conforms_iff _ _ (Plain.denies_flat 64 _)).mpr
    (staysTame_of_checked 5 (by decide +kernel) (by decide +kernel))

end Flat

/-- A simulation does what a hart of the instruction set does, to the same endings. -/
structure Simulator.RefinesHart (w : Nat) (sim : Simulator) (startPc : VirtAddr)
    (flat : Flat w) : Prop where
  visits : ∀ n cfg, run Config.step n (Config.start sim startPc) = .next cfg →
    ∃ m hart, run (Rv64i.Hart.step flat.denied) m flat.rv64i = .next hart ∧
      cfg.sim.plain.flat w = flat.withHart hart
  returns : ∀ value, (∃ result, sim.Returns startPc result ∧ result.plain.flat w = value) ↔
    ∃ m ending hart, run (Rv64i.Hart.step flat.denied) m flat.rv64i = .stop (ending, hart) ∧
      value = .ok (.ofEnding ending, flat.withHart hart)

/-- A simulation that runs as without tables runs as a hart that stays tame. -/
theorem Simulator.RefinesFlat.refinesHart {w : Nat} {sim : Simulator} {startPc : VirtAddr}
    (refines : sim.RefinesFlat w startPc)
    (tame : ((sim.start startPc).plain.flat w).StaysTame
      ((sim.start startPc).plain.flat w).rv64i) :
    sim.RefinesHart w startPc ((sim.start startPc).plain.flat w) := by
  have same (n : Nat) := Flat.run_withHart _ _ (Plain.denies_flat w _)
    (n := n) fun m after _ => tame m after
  simp only [Flat.withHart_rv64i] at same
  refine ⟨fun n cfg led => ?_, fun value => (refines.returns value).trans ⟨?_, ?_⟩⟩
  · obtain ⟨m, flatLed⟩ := refines.visits n cfg led
    rw [same] at flatLed
    -- The interpreter goes on where the hart does.
    cases hartLed : run (Rv64i.Hart.step ((sim.start startPc).plain.flat w).denied) m
        ((sim.start startPc).plain.flat w).rv64i with
    | next hart =>
      rw [hartLed] at flatLed
      injection flatLed with flatLed
      exact ⟨m, hart, hartLed, flatLed.symm⟩
    | stop result =>
      rw [hartLed] at flatLed
      cases flatLed
  · rintro ⟨m, stopped⟩
    rw [same] at stopped
    cases hartStopped : run (Rv64i.Hart.step ((sim.start startPc).plain.flat w).denied) m
        ((sim.start startPc).plain.flat w).rv64i with
    | next hart =>
      rw [hartStopped] at stopped
      cases stopped
    | stop result =>
      obtain ⟨ending, hart⟩ := result
      rw [hartStopped] at stopped
      cases stopped
      exact ⟨m, ending, hart, hartStopped, rfl⟩
  · rintro ⟨m, ending, hart, stopped, rfl⟩
    refine ⟨m, (same m).trans ?_⟩
    rw [stopped]
    rfl

end RiscvSim

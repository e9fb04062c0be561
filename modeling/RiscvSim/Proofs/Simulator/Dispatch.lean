import RiscvSim.Proofs.Instr.Operands
import RiscvSim.Proofs.Simulator.Loop

/-! Which instructions the dispatch table has handlers for, and what those handlers are. -/

namespace RiscvSim

open Transition

/-- The instruction has a handler, as every status does. -/
def InstrId.Implemented (id : InstrId) : Prop := id = .simStatusInstr ∨ id ∈ implementedInstrs

instance (id : InstrId) : Decidable id.Implemented := inferInstanceAs (Decidable (_ ∨ _))

/-- Every implemented instruction is described. -/
theorem implementedInstrs_described : ∀ id ∈ implementedInstrs,
    ∃ descr ∈ instructions, descr.id = id := by
  decide +kernel

/-- The table gives each implemented instruction its own handler, and no other instruction one. -/
theorem dispatch_eq (id : InstrId) :
    dispatch id = if id.Implemented then simInstr id else none := by
  -- Every status has one handler.
  by_cases status : id = .simStatusInstr
  · subst status
    rw [if_pos (.inl rfl)]
    rfl
  · have implemented : id.Implemented ↔ id ∈ implementedInstrs := or_iff_right status
    by_cases described : ∃ descr ∈ instructions, descr.id = id
    · obtain ⟨descr, member, rfl⟩ := described
      simp only [dispatch_described member, implemented]
    · -- An identifier without a description has a number past the end of the table.
      have unlisted : id ∉ instrIds := by
        intro listed
        rcases List.mem_cons.mp listed with same | listed
        · exact status same
        · obtain ⟨descr, member, same⟩ := List.mem_map.mp listed
          exact described ⟨descr, member, same⟩
      have past : dispatchTable[id.toUnderlying]? = none := by
        rw [InstrId.toUnderlying, List.idxOf_eq_length unlisted]
        exact List.getElem?_eq_none (by simp [dispatchTable, instrIds])
      rw [dispatch, past, if_neg]
      rw [implemented]
      exact fun listed => described (implementedInstrs_described id listed)

/-- The instructions with handlers are the implemented ones. -/
theorem isSome_dispatch_iff (id : InstrId) : (dispatch id).isSome ↔ id.Implemented := by
  -- By the table, an implemented instruction has the handler that was written for it.
  rw [dispatch_eq]
  split
  · rename_i implemented
    refine iff_of_true ?_ implemented
    rcases implemented with rfl | listed
    · rfl
    · exact simInstr_isSome id listed
  · rename_i missing
    exact iff_of_false (by simp) missing

/-- A handler of the table is the one written for the instruction. -/
theorem simInstr_of_dispatch {id : InstrId} {handler : Handler}
    (found : dispatch id = some handler) : simInstr id = some handler := by
  rw [dispatch_eq] at found
  split at found
  · exact found
  · cases found

/-- The handler never goes on to the next entry of the block. -/
def Handler.ends : Handler → Bool
  | .status | .jump _ | .branch _ => true
  | _ => false

/-- The handler returns the status of its instruction. -/
def Handler.isStatus : Handler → Bool
  | .status => true
  | _ => false

/-- The handler ends the simulation. -/
def Handler.isExit : Handler → Bool
  | .exit => true
  | _ => false

/-- The handlers of statuses and branches are those that end a block. -/
theorem simInstr_kind {id : InstrId} {handler : Handler} (found : simInstr id = some handler) :
    handler.ends = (id == .simStatusInstr || Bb.isBranch id) ∧
      handler.isStatus = (id == .simStatusInstr) ∧ handler.isExit = (id == .ecall) := by
  -- The list of handlers says which ones return to the loop.
  unfold simInstr at found
  split at found <;> cases found <;> exact ⟨rfl, rfl, rfl⟩

/-- Computing a value or a target does not call a null handler. -/
def Handler.Safe : Handler → Prop
  | .compute res => ∀ core instr, res core instr ≠ .error .nullHandler
  | .jump newPc => ∀ core instr, newPc core instr ≠ .error .nullHandler
  | _ => True

section safety

/-- Registers are read, or an assertion fails. -/
theorem Core.read_error {core : Core} {idx : BitVec 8} {why : Abort}
    (failed : core.read idx = .error why) : why = .assertion := by
  unfold Core.read GPRFile.read at failed
  split at failed <;> cases failed
  rfl

/-- Registers are written, or an assertion fails. -/
theorem Core.write_error {core : Core} {idx : BitVec 8} {value : RegValue} {why : Abort}
    (failed : core.write idx value = .error why) : why = .assertion := by
  -- The write fails in the register file, which checks the index.
  unfold Core.write GPRFile.write at failed
  split at failed
  · rename_i inner
    split at inner <;> cases inner
    cases failed
    rfl
  · cases failed

/-- A computation that first reads a register is safe when the rest is. -/
theorem read_bind_safe {α : Type} {core : Core} {idx : BitVec 8} {next : RegValue → Except Abort α}
    (safe : ∀ value, next value ≠ .error .nullHandler) :
    (core.read idx >>= next) ≠ .error .nullHandler := by
  -- A read that fails stops with an assertion.
  cases result : core.read idx with
  | error why =>
    rw [Core.read_error result]
    nofun
  | ok value => exact safe value

/-- A computation that shifts a value is safe when the rest is. -/
theorem shiftBy_bind_safe {α : Type} {w : Nat} {shift : BitVec w → Nat → BitVec w}
    {value : BitVec w} {count : Nat} {next : BitVec w → Except Abort α}
    (safe : ∀ shifted, next shifted ≠ .error .nullHandler) :
    (shiftBy shift value count >>= next) ≠ .error .nullHandler := by
  -- So does a shift by too many bits.
  unfold shiftBy
  split
  · exact safe _
  · nofun

open SimInstr

/-- An operation on two registers is safe. -/
theorem fromRegs_safe (op : RegValue → RegValue → RegValue) : (fromRegs op).Safe :=
  fun _ _ => read_bind_safe fun _ => read_bind_safe fun _ => nofun

/-- An operation on a register and an immediate is safe. -/
theorem fromImm_safe (op : RegValue → RegValue → RegValue) : (fromImm op).Safe :=
  fun _ _ => read_bind_safe fun _ => nofun

/-- A shift by an immediate is safe. -/
theorem shiftImm_safe (w : Nat) (shift : BitVec w → Nat → BitVec w) : (shiftImm w shift).Safe :=
  fun _ _ => read_bind_safe fun _ => shiftBy_bind_safe fun _ => nofun

/-- A shift by a register is safe. -/
theorem shiftReg_safe (w hi : Nat) (shift : BitVec w → Nat → BitVec w) :
    (shiftReg w hi shift).Safe :=
  fun _ _ => read_bind_safe fun _ => read_bind_safe fun _ => shiftBy_bind_safe fun _ => nofun

/-- Every handler is safe. -/
theorem simInstr_safe {id : InstrId} {handler : Handler} (found : simInstr id = some handler) :
    handler.Safe := by
  -- Handlers of one shape are safe for one reason.
  unfold simInstr at found
  split at found <;> cases found <;>
    first
    | exact trivial
    | exact fromRegs_safe _
    | exact fromImm_safe _
    | exact shiftImm_safe _ _
    | exact shiftReg_safe _ _ _
    | exact fun _ _ => read_bind_safe fun _ => nofun
    | exact fun _ _ => nofun

/-- Translation gives a result, or an assertion fails. -/
theorem translate_error {memory : PhysMemory} {mstatus64 : MSTATUS64} {satp64 : SATP64}
    {privLevel : PrivLevel} {accessType : AccessType} {va : VirtAddr} {why : Abort}
    (failed : translate memory mstatus64 satp64 privLevel accessType va = .error why) :
    why = .assertion := by
  unfold translate at failed
  split at failed
  · cases failed
  · -- Only the mode and the flags of a leaf are asserted.
    cases translating : modeToLevels satp64.mode with
    | error other =>
      rw [translating] at failed
      cases failed
      unfold modeToLevels at translating
      split at translating <;> cases translating
      rfl
    | ok levels =>
      simp only [translating] at failed
      split at failed
      · cases failed
      · split at failed
        · cases failed
        · split at failed
          · cases failed
          · split at failed <;> cases failed
            rfl

/-- A load gives a result, or it aborts without calling a handler. -/
theorem Simulator.loadInt_safe (n : Nat) (access : LoadAccess) (sim : Simulator) (va : VirtAddr) :
    sim.loadInt n access va ≠ .error .nullHandler := by
  intro failed
  unfold Simulator.loadInt at failed
  split at failed
  · cases failed
  · dsimp only at failed
    -- A hit reads from the cached page, and a miss translates first.
    split at failed
    · split at failed
      · cases failed
      · split at failed <;> cases failed
    · split at failed
      · rename_i translated
        cases translate_error translated
        cases failed
      · split at failed
        · cases failed
        · split at failed <;> cases failed

/-- A store succeeds or fails, or it aborts without calling a handler. -/
theorem Simulator.storeInt_safe (n : Nat) (sim : Simulator) (va : VirtAddr)
    (value : BitVec (8 * n)) : sim.storeInt n va value ≠ .error .nullHandler := by
  intro failed
  unfold Simulator.storeInt at failed
  split at failed
  · cases failed
  · dsimp only at failed
    split at failed
    · -- The same two ways lead to a store.
      split at failed
      · cases failed
      · split at failed <;> cases failed
    · split at failed
      · rename_i translated
        cases translate_error translated
        cases failed
      · split at failed
        · cases failed
        · split at failed <;> cases failed

/-- A handler of the table never calls another one through a null pointer. -/
theorem Simulator.exec_safe {handler : Handler} (safe : handler.Safe) (sim : Simulator)
    (instr : Instr) : handler.exec sim instr ≠ .error .nullHandler := by
  intro failed
  cases handler with
  | status =>
    -- The status is checked to be one.
    simp only [Handler.exec, Instr.status] at failed
    split at failed
    · rename_i inner
      split at inner
      · split at inner <;> cases inner
        cases failed
      · cases inner
        cases failed
    · cases failed
  | exit => cases failed
  | compute res =>
    -- The value is computed, and then the register is written.
    simp only [Handler.exec, simCompute] at failed
    split at failed
    · rename_i inner
      cases failed
      exact safe _ _ inner
    · split at failed
      · rename_i inner
        cases Core.write_error inner
        cases failed
      · cases failed
  | load n widen =>
    -- A load reads the base, accesses memory and writes the register.
    simp only [Handler.exec, simLoadInstr] at failed
    split at failed
    · rename_i inner
      cases Core.read_error inner
      cases failed
    · split at failed
      · rename_i inner
        cases failed
        exact loadInt_safe n .read sim _ inner
      · split at failed
        · cases failed
        · split at failed
          · rename_i inner
            cases Core.write_error inner
            cases failed
          · cases failed
  | store n =>
    -- A store reads two registers and accesses memory.
    simp only [Handler.exec, simStoreInstr] at failed
    split at failed
    · rename_i inner
      cases Core.read_error inner
      cases failed
    · split at failed
      · rename_i inner
        cases Core.read_error inner
        cases failed
      · split at failed
        · rename_i inner
          cases failed
          exact storeInt_safe n sim _ _ inner
        · split at failed <;> cases failed
  | jump newPc =>
    -- A jump computes its target, checks it and links.
    simp only [Handler.exec, simJump] at failed
    split at failed
    · rename_i inner
      cases failed
      exact safe _ _ inner
    · split at failed
      · cases failed
      · split at failed
        · rename_i inner
          cases Core.write_error inner
          cases failed
        · cases failed
  | branch cmp =>
    -- A branch only reads registers.
    simp only [Handler.exec, simCondBranch] at failed
    split at failed
    · rename_i inner
      cases Core.read_error inner
      cases failed
    · split at failed
      · rename_i inner
        cases Core.read_error inner
        cases failed
      · split at failed
        · split at failed <;> cases failed
        · cases failed

/-- Decoding a block aborts only where fetching a word does. -/
theorem Bb.updateFrom_error {σ : Type} {fetch : σ → Except Abort (FetchResult × σ)}
    {stale : List Instr} {state : σ} {why : Abort}
    (failed : updateFrom fetch stale state = .error why) : ∃ at', fetch at' = .error why := by
  -- By induction on the places of the block, one fetch for each.
  induction stale generalizing state with
  | nil => cases failed
  | cons entry rest ih =>
    cases rest with
    | nil => cases failed
    | cons next rest =>
      rw [updateFrom] at failed
      split at failed
      · rename_i inner
        cases failed
        exact ⟨_, inner⟩
      · split at failed
        · cases failed
        · dsimp only at failed
          split at failed
          · cases failed
          · split at failed
            · rename_i inner
              cases failed
              exact ih inner
            · cases failed

/-- Looking up a block calls no handler. -/
theorem Simulator.findBb_safe (sim : Simulator) : sim.findBb ≠ .error .nullHandler := by
  intro failed
  unfold findBb at failed
  dsimp only at failed
  split at failed
  · split at failed
    · -- The only callee that can fail is the fetch of a word.
      rename_i inner
      cases failed
      unfold Bb.update at inner
      split at inner
      · rename_i unfetched
        cases inner
        obtain ⟨⟨va, state⟩, error⟩ := Bb.updateFrom_error unfetched
        unfold fetch at error
        dsimp only at error
        split at error
        · rename_i inner
          cases error
          exact loadInt_safe _ _ _ _ inner
        · cases error
      · cases inner
    · cases failed
  · cases failed

end safety

/-- The status that iterations of the loop end with, if they end. -/
def Simulator.returnedStatus : Except Abort (Option SimStatus × Simulator) → Option SimStatus
  | .ok (status, _) => status
  | .error _ => none

/-- A memory of one page that holds a word. -/
def PhysMemory.holdingWord (physAddr : PhysAddr) (word : InstrCode) : PhysMemory :=
  match PhysMemory.new.addRAMPage (pageBase physAddr) with
  | .ok (_, memory) => (memory.write (n := 4) physAddr word).2
  | .error _ => PhysMemory.new

/-- A simulator whose memory holds a word. -/
def Simulator.holdingWord (physAddr : PhysAddr) (word : InstrCode) : Simulator where
  physMemory := PhysMemory.holdingWord physAddr word

/-- A simulator after its host has written words to memory in turn. -/
def Simulator.writeWords (words : List (PhysAddr × InstrCode)) (sim : Simulator) : Simulator :=
  words.foldl (fun sim (physAddr, word) =>
    { sim with physMemory := (sim.physMemory.write (n := 4) physAddr word).2 }) sim

/-- A simulator that holds a program of two blocks in a page, and a further environment call.

The first block takes its own address, loads a register from offset 0x40 behind it, stores the
register to offset 0x48, and jumps over a word to the second block, an environment call.
-/
def Simulator.holdingProgram (page : PhysAddr) : Simulator :=
  (holdingWord page 0x00000317).writeWords
    [(page + 4, 0x04033283), (page + 8, 0x04533423), (page + 0xc, 0x0080006f), (page + 0x14, 0x73),
      (page + 0x40, 0x2a), (page + 0x200, 0x73)]

/-- The addresses of the words that the program fetches ahead. -/
def Simulator.programWords (page : VirtAddr) : List VirtAddr :=
  [page, page + 4, page + 8, page + 0xc, page + 0x14, page + 0x18, page + 0x200, page + 0x204]

namespace Config

/-- A step calls a null handler exactly when it meets an instruction without a handler. -/
theorem step_null_iff (cfg : Config) :
    step cfg = .stop (.error .nullHandler) ↔
      ∃ instr rest, cfg.rest = some (instr :: rest) ∧ ¬instr.id.Implemented := by
  constructor
  · intro stop
    -- Every way to stop but one is excluded by the safety of its callee.
    cases step_stop stop with
    | unfetched _ failed => exact absurd failed cfg.sim.findBb_safe
    | missing here missing =>
      refine ⟨_, _, here, fun implemented => ?_⟩
      have present := (isSome_dispatch_iff _).mpr implemented
      rw [missing] at present
      cases present
    | aborted _ dispatched failed =>
      exact absurd failed
        (Simulator.exec_safe (simInstr_safe (simInstr_of_dispatch dispatched)) _ _)
  · -- A missing handler is a null pointer of the table.
    rintro ⟨instr, rest, here, missing⟩
    have absent : dispatch instr.id = none := by rw [dispatch_eq, if_neg missing]
    obtain ⟨sim, entries⟩ := cfg
    cases here
    simp [step, absent]

/-- A simulation never meets a missing handler, and refuses instructions without one. -/
structure HandlersPresent (sim : Simulator) (startPc : VirtAddr) : Prop where
  /-- The entry of the table for the current instruction is a handler. -/
  present : ∀ n cfg instr rest, run step n (start sim startPc) = .next cfg →
    cfg.rest = some (instr :: rest) → (dispatch instr.id).isSome
  /-- No null pointer is called. -/
  returns : ¬sim.Returns startPc (.error .nullHandler)
  /-- A word without an implemented handler is refused as an undecodable one is. -/
  refuses : ∀ n cfg instrCode rest, run step n (start sim startPc) = .next cfg →
    cfg.rest = some (Instr.decode instrCode :: rest) →
    (Instr.decode instrCode).id ∉ implementedInstrs →
    step cfg = .stop (.ok (.simNotImplementedInstr, cfg.sim))

/-- Handlers are always present exactly when every instruction that is met is implemented. -/
theorem handlersPresent_iff (sim : Simulator) (startPc : VirtAddr) :
    HandlersPresent sim startPc ↔
      ∀ n cfg instr rest, run step n (start sim startPc) = .next cfg →
        cfg.rest = some (instr :: rest) → instr.id.Implemented := by
  constructor
  · intro handlers n cfg instr rest led here
    exact (isSome_dispatch_iff _).mp (handlers.present n cfg instr rest led here)
  · intro implemented
    refine ⟨fun n cfg instr rest led here => (isSome_dispatch_iff _).mpr
      (implemented n cfg instr rest led here), fun returns => ?_, ?_⟩
    · -- The last step of such a run meets an instruction without a handler.
      obtain ⟨n, stopped⟩ := (Simulator.returns_iff _ _ _).mp returns
      obtain ⟨m, _, cfg, led, stop⟩ := last_of_stop stopped
      obtain ⟨instr, rest, here, missing⟩ := (step_null_iff cfg).mp stop
      exact missing (implemented m cfg instr rest led here)
    · intro n cfg instrCode rest led here unlisted
      have status : (Instr.decode instrCode).id = .simStatusInstr :=
        -- Words without a handler were refused when they were decoded.
        (implemented n cfg _ rest led here).resolve_right unlisted
      obtain ⟨sim, entries⟩ := cfg
      cases here
      rw [decode_of_status status]
      rfl

/-- The first entry of a block, when the step from a point finds one. -/
def firstEntry (cfg : Config) : Option Instr :=
  match step cfg with
  | .next after => after.rest.bind List.head?
  | .stop _ => none

/-- The first entry is the current one at the next point. -/
theorem next_of_firstEntry {cfg : Config} {instr : Instr} (first : cfg.firstEntry = some instr) :
    ∃ after rest, step cfg = .next after ∧ after.rest = some (instr :: rest) := by
  unfold firstEntry at first
  cases next : step cfg with
  | stop value =>
    rw [next] at first
    cases first
  | next after =>
    rw [next] at first
    obtain ⟨entries, inside, head⟩ := Option.bind_eq_some_iff.mp first
    obtain ⟨rest, rfl⟩ := List.head?_eq_some_iff.mp head
    exact ⟨after, rest, rfl, inside⟩

/-- A multiplication is decoded, but it has no handler. -/
theorem not_handlersPresent_mul :
    ¬HandlersPresent (Simulator.holdingWord 0 0x02000033) 0 := by
  intro handlers
  -- The word is decoded as a multiplication, and it is the first entry of the block.
  have met : (start (Simulator.holdingWord 0 0x02000033) 0).firstEntry =
      some (Instr.decode 0x02000033) := by decide +kernel
  obtain ⟨after, rest, next, here⟩ := next_of_firstEntry met
  have found := handlers.present 1 after _ rest ((run_succ rfl).trans next) here
  revert found
  decide +kernel

end Config

end RiscvSim

import RiscvSim.Proofs.Memory.Walk
import RiscvSim.Proofs.Simulator.Progress
import RiscvSim.Proofs.Simulator.Sentinels

/-! Runs from aligned addresses: no fetch is unaligned, and no access crosses its page. -/

namespace RiscvSim

open PhysMemory (Fits)
open Transition

/-- A status that tells of a wrong alignment of a fetch, or of an access that crosses its page. -/
def SimStatus.Misaligned (status : SimStatus) : Prop :=
  status = .simUnalignedLoad ∨ status = .physMemPageAlignError

instance (status : SimStatus) : Decidable status.Misaligned :=
  inferInstanceAs (Decidable (_ ∨ _))

/-- Success tells of no wrong alignment. -/
theorem SimStatus.not_misaligned_ok : ¬SimStatus.ok.Misaligned := by decide

namespace PhysMemory

variable {memory : PhysMemory} {n : Nat} {physAddr : PhysAddr}

/-- Reading inside a page succeeds, or the page is missing. -/
theorem read_aligned (fits : Fits physAddr n) (dst : BitVec (8 * n)) :
    ¬(memory.read physAddr dst).status.Misaligned := by
  rw [read_status, accessStatus, if_neg (not_not.2 fits)]
  -- Without a crossing only the page can be missing.
  split <;> decide

/-- Writing inside a page succeeds, or the page is missing. -/
theorem write_aligned (fits : Fits physAddr n) (value : BitVec (8 * n)) :
    ¬(memory.write physAddr value).1.status.Misaligned := by
  rw [write_status, accessStatus, if_neg (not_not.2 fits)]
  split <;> decide

end PhysMemory

section translation

variable {memory : PhysMemory} {va : VirtAddr}

/-- Every entry that a walk reads lies in one page. -/
theorem fits_walkEntries {i : Nat} (inside : i ≤ 4) (tablePpn : PhysAddr) :
    ∀ pa ∈ walkEntries memory va i tablePpn, Fits pa pteBytes := by
  -- One entry is read for each level.
  induction i generalizing tablePpn with
  | zero =>
    intro pa member
    rw [walkEntries] at member
    have only : pa = pteAddr tablePpn va 0 := by
      revert member
      split
      · simp
      · split
        · simp
        · split <;> simp
    rw [only]
    exact fits_pteAddr tablePpn va inside
  | succ i ih =>
    intro pa member
    rw [walkEntries] at member
    -- The first entry is the one of this level, and the others come from the table below.
    rcases List.mem_cons.1 member with rfl | member
    · exact fits_pteAddr tablePpn va inside
    · split at member
      · cases member
      · split at member
        · cases member
        · split at member
          · cases member
          · exact ih (by omega) _ pa member

/-- Every entry that a translation reads lies in one page. -/
theorem fits_tableEntries (satp64 : SATP64) :
    ∀ pa ∈ tableEntries memory satp64 va, Fits pa pteBytes := by
  intro pa member
  unfold tableEntries at member
  split at member
  · cases member
  · rename_i levels translating
    -- There are at most five levels.
    have bounds := modeToLevels_bounds translating
    exact fits_walkEntries (by omega) _ pa member

/-- Translation reports no wrong alignment. -/
theorem translate_aligned {mstatus64 : MSTATUS64} {satp64 : SATP64} {privLevel : PrivLevel}
    {accessType : AccessType} {result : TranslateResult}
    (done : translate memory mstatus64 satp64 privLevel accessType va = .ok result) :
    ¬result.status.Misaligned := by
  rcases status_of_translate done with ok | missing | fault
  · rw [ok]
    exact SimStatus.not_misaligned_ok
  · rw [missing]
    decide
  · rw [fault]
    decide

end translation

namespace Simulator

variable {sim after : Simulator} {n : Nat} {va : VirtAddr}

/-- Translation keeps the position of an aligned access in its page. -/
theorem fits_of_translateVa {accessType : AccessType} {pa : PhysAddr} (size : AccessSize n)
    (aligned : va &&& addrAlignMask n = 0)
    (translated : sim.translateVa accessType va = .ok ⟨.ok, pa⟩) : Fits pa n := by
  have offset := (pagewise_translateVa sim accessType).page_of translated
  have same := congrArg BitVec.toNat offset.2
  rw [toNat_pageOffset, toNat_pageOffset] at same
  -- The page offset of an aligned address leaves room for the access.
  have fits := fits_of_aligned size aligned
  unfold Fits at fits ⊢
  omega

/-- A load does not cross its page, and is refused as unaligned only if it is. -/
theorem loadInt_aligned {access : LoadAccess} {res : LoadResult n} (size : AccessSize n)
    (done : sim.loadInt n access va = .ok (res, after)) :
    res.status ≠ .physMemPageAlignError ∧
      (va &&& addrAlignMask n = 0 → ¬res.status.Misaligned) := by
  -- Whatever an aligned load reports, it is not its alignment.
  have both {status : SimStatus} (proper : ¬status.Misaligned) :
      status ≠ .physMemPageAlignError ∧ (va &&& addrAlignMask n = 0 → ¬status.Misaligned) :=
    ⟨fun crossed => proper (.inr crossed), fun _ => proper⟩
  cases loadInt_ends done with
  | unaligned unaligned =>
    exact ⟨show SimStatus.simUnalignedLoad ≠ _ by decide, fun aligned => absurd aligned unaligned⟩
  | hit => exact both SimStatus.not_misaligned_ok
  | untranslated _ translated => exact both (translate_aligned translated)
  | unread aligned translated =>
    -- The read fails only for a page that is missing.
    exact both (sim.physMemory.read_aligned (fits_of_translateVa size aligned translated) 0)
  | read => exact both SimStatus.not_misaligned_ok

/-- A store does not cross its page. -/
theorem storeInt_aligned {value : BitVec (8 * n)} {status : SimStatus} (size : AccessSize n)
    (done : sim.storeInt n va value = .ok (status, after)) : status ≠ .physMemPageAlignError := by
  cases storeInt_ends done with
  -- An unaligned store is refused before it is translated.
  | unaligned => decide
  | hit => decide
  | untranslated _ translated =>
    -- A fault of the translation tells of no crossing.
    exact fun crossed => translate_aligned translated (.inr crossed)
  | unwritten aligned translated =>
    have fits := fits_of_translateVa size aligned translated
    exact fun crossed => sim.physMemory.write_aligned fits value (.inr crossed)
  | written => decide

/-- An address that passes the check of a jump is that of a word. -/
theorem aligned_of_mask {va : VirtAddr} (masked : va &&& pcAlignMask = 0) : va.toNat % 4 = 0 := by
  -- The mask tests the two lowest bits.
  have checked := not_congr (pcAlignMask_iff va)
  rw [not_not, not_not] at checked
  exact checked.1 masked

/-- The address of a word passes the check of a fetch. -/
theorem mask_of_aligned {va : VirtAddr} (aligned : va.toNat % 4 = 0) :
    va &&& addrAlignMask 4 = 0 := by
  have checked := not_congr (pcAlignMask_iff va)
  rw [not_not, not_not] at checked
  exact checked.2 aligned

/-- The address of the next word is that of a word. -/
theorem aligned_next {va : VirtAddr} (aligned : va.toNat % 4 = 0) :
    (va + instrCodeSize).toNat % 4 = 0 := by
  rw [BitVec.toNat_add, show instrCodeSize.toNat = 4 from rfl]
  omega

/-- No handler leaves the addresses of words. -/
theorem exec_pc {handler : Handler} {instr : Instr} {flow : Flow}
    (executed : handler.exec sim instr = .ok (flow, after)) (aligned : sim.pc.toNat % 4 = 0) :
    after.pc.toNat % 4 = 0 := by
  have next := aligned_next aligned
  -- One case for each way in which a handler ends.
  cases exec_ends executed with
  | status => exact aligned
  -- The exit goes on to the next word, as every instruction that retires.
  | exit => exact next
  | computed _ write =>
    -- Writing a register keeps the program counter.
    obtain ⟨gprFile, rfl⟩ := Core.write_frame write
    exact next
  | unloaded _ load =>
    -- The load itself moves nothing.
    rw [show after.pc = sim.pc from congrArg Core.pc (loadInt_frame load).1.1]
    exact aligned
  | @loaded n widen vaBase res loaded written _ load _ write =>
    obtain ⟨gprFile, rfl⟩ := Core.write_frame write
    change (loaded.pc + instrCodeSize).toNat % 4 = 0
    rw [show loaded.pc = sim.pc from congrArg Core.pc (loadInt_frame load).1.1]
    exact next
  | unstored _ _ store =>
    -- Neither does the store.
    rw [show after.pc = sim.pc from congrArg Core.pc (storeInt_frame store).1]
    exact aligned
  | @stored n vaBase value stored _ _ store =>
    change (stored.pc + instrCodeSize).toNat % 4 = 0
    rw [show stored.pc = sim.pc from congrArg Core.pc (storeInt_frame store).1]
    exact next
  | astray => exact aligned
  -- A jump checks its target before it takes it.
  | jumped _ masked => exact aligned_of_mask masked
  | refused => exact aligned
  -- So does a branch that is taken.
  | taken _ _ _ masked => exact aligned_of_mask masked
  | untaken => exact next

/-- Only a status instruction returns that an access crosses its page. -/
theorem exec_aligned {handler : Handler} {instr : Instr} {status : SimStatus}
    (sized : handler.Sized) (executed : handler.exec sim instr = .ok (.ret status, after))
    (crosses : status = .physMemPageAlignError) :
    handler.isStatus = true ∧ instr.status = .ok status := by
  cases exec_ends executed with
  | status found => exact ⟨rfl, found⟩
  -- The exit returns its own status.
  | exit => cases crosses
  -- A load that fails returns the status of the access.
  | unloaded _ load => exact absurd crosses (loadInt_aligned sized load).1
  -- So does a store.
  | unstored _ _ store => exact absurd crosses (storeInt_aligned sized store)
  -- A jump returns that its target is wrong, or that all is well.
  | astray => cases crosses
  | jumped => cases crosses
  | refused => cases crosses
  | taken => cases crosses
  | untaken => cases crosses

end Simulator

/-- The entries that may be dispatched tell of no wrong alignment. -/
def AlignedEntries : List Instr → Prop
  | [] => True
  | instr :: rest =>
    (∀ status, instr.status = .ok status → ¬status.Misaligned) ∧
      (Bb.Ends instr ∨ AlignedEntries rest)

/-- A decoded word tells of no wrong alignment. -/
theorem decode_aligned {instrCode : InstrCode} {status : SimStatus}
    (held : (Instr.decode instrCode).status = .ok status) : ¬status.Misaligned := by
  by_cases undecodable : (Instr.decode instrCode).id = .simStatusInstr
  · -- A word that cannot be decoded holds the status of an unknown instruction.
    rw [decode_of_status undecodable, Instr.status_statusInstr] at held
    cases held
    decide
  · -- Other instructions hold no status.
    rw [Instr.status, if_neg undecodable] at held
    cases held

/-- Fetching words in this way, from states of some kind, tells of no wrong alignment. -/
def FetchesAligned {σ : Type} (fetch : σ → Except Abort (FetchResult × σ)) (k : σ → Prop) : Prop :=
  ∀ state res later, k state → fetch state = .ok (res, later) → k later ∧ ¬res.status.Misaligned

/-- A block is decoded without a wrong alignment. -/
theorem FetchesAligned.updates {σ : Type} {fetch : σ → Except Abort (FetchResult × σ)}
    {k : σ → Prop} (fetches : FetchesAligned fetch k) {stale entries : List Instr}
    {state after : σ} (start : k state) (decoded : Bb.Updates fetch stale state entries after) :
    AlignedEntries entries := by
  -- The induction follows the worker.
  induction decoded with
  | nil => trivial
  | full =>
    -- The last place always holds the status ok.
    refine ⟨fun status held => ?_, .inl (.inl rfl)⟩
    rw [Instr.status_statusInstr] at held
    cases held
    exact SimStatus.not_misaligned_ok
  | fault fetched =>
    refine ⟨fun status held => ?_, .inl (.inl rfl)⟩
    rw [Instr.status_statusInstr] at held
    cases held
    -- The entry holds the status of the fetch that failed.
    exact (fetches _ _ _ start fetched).2
  | last _ _ ends =>
    -- An entry that ends the block is the last one to be dispatched.
    exact ⟨fun status held => decode_aligned held, .inl ends⟩
  | more fetched _ _ _ ih =>
    -- The fetch keeps the kind of the state, and the block goes on with the words that follow.
    exact ⟨fun status held => decode_aligned held, .inr (ih (fetches _ _ _ start fetched).1)⟩

/-- No result of fetching again and again tells of a wrong alignment. -/
theorem FetchesAligned.fetches {σ : Type} {fetch : σ → Except Abort (FetchResult × σ)}
    {k : σ → Prop} (aligned : FetchesAligned fetch k) {state after : σ} {results : List FetchResult}
    (start : k state) (fetches : Bb.Fetches fetch state results after) :
    ∀ res ∈ results, ¬res.status.Misaligned := by
  induction fetches with
  | nil => exact fun res member => absurd member List.not_mem_nil
  | cons fetched _ ih =>
    have kept := aligned _ _ _ start fetched
    intro res member
    rcases List.mem_cons.1 member with rfl | member
    · exact kept.2
    · exact ih kept.1 res member

namespace Simulator

variable {sim after : Simulator}

/-- Words are fetched one after another, from the address of a word on. -/
theorem fetchesAligned : FetchesAligned fetch fun state => state.1.toNat % 4 = 0 := by
  -- The word is aligned, so the load is, and the next address is that of a word again.
  intro state res later aligned fetched
  rcases state with ⟨va, sim⟩
  unfold fetch at fetched
  dsimp only at fetched
  split at fetched
  · cases fetched
  · rename_i loaded
    cases fetched
    exact ⟨aligned_next aligned,
      (loadInt_aligned (.inr (.inr (.inl rfl))) loaded).2 (mask_of_aligned aligned)⟩

/-- A cached block at the address of a word tells of no wrong alignment. -/
def BlocksAligned (sim : Simulator) : Prop :=
  ∀ i, (sim.bbCache.entries i).virtAddr.toNat % 4 = 0 →
    AlignedEntries (sim.bbCache.entries i).instrs

/-- The block that is found at the address of a word tells of no wrong alignment. -/
theorem BlocksAligned.findBb (blocks : sim.BlocksAligned) {bb : Bb}
    (found : sim.findBb = .ok (bb, after)) :
    after.BlocksAligned ∧ (sim.pc.toNat % 4 = 0 → AlignedEntries bb.instrs) := by
  unfold Simulator.findBb at found
  dsimp only at found
  -- A miss decodes the block at the program counter, and a hit changes nothing.
  split at found
  · split at found
    · cases found
    · rename_i updatedBb address fetched updated
      cases found
      obtain ⟨virtAddr, pc, cached⟩ := update_frame updated
      -- An updated block was fetched from its address on.
      have entries (aligned : sim.pc.toNat % 4 = 0) : AlignedEntries bb.instrs := by
        have whole := Bb.update_eq fetch (sim.bbCache.find sim.pc) (sim.pc, sim) sim.pc
        cases decoded : Bb.updateFrom fetch (sim.bbCache.find sim.pc).instrs (sim.pc, sim) with
        | error why =>
          rw [decoded, updated] at whole
          cases whole
        | ok result =>
          rcases result with ⟨entries, later⟩
          rw [decoded] at whole
          obtain ⟨same, stored, _, instrs⟩ := whole
          rw [updated] at stored
          cases stored
          rw [instrs]
          exact fetchesAligned.updates aligned (Bb.updates_of_updateFrom decoded)
      refine ⟨?_, entries⟩
      intro i aligned
      simp only [BbCache.set, cached, pc] at aligned ⊢
      -- The block that was fetched replaces one, and the others are as they were.
      by_cases here : i = BbCache.index sim.pc
      · subst here
        rw [Function.update_self] at aligned ⊢
        rw [virtAddr] at aligned
        exact entries aligned
      · rw [Function.update_of_ne here] at aligned ⊢
        exact blocks i aligned
  · rename_i hit
    cases found
    refine ⟨blocks, fun aligned => blocks _ ?_⟩
    -- A hit is on a block at the address that is looked for.
    rw [← not_not.1 hit] at aligned
    exact aligned

end Simulator

namespace Config

variable {cfg after : Config}

/-- A point of a simulation from the address of a word. -/
structure Aligned (cfg : Config) : Prop where
  pc : cfg.sim.pc.toNat % 4 = 0
  rest : ∀ entries, cfg.rest = some entries → AlignedEntries entries

/-- A step keeps the cached blocks as they should be, wherever it is. -/
theorem blocksAligned_step (blocks : cfg.sim.BlocksAligned) (next : step cfg = .next after) :
    after.sim.BlocksAligned := by
  -- Looking up a block is the only step that touches the cache.
  cases step_next next with
  | found _ found => exact (blocks.findBb found).1
  | called _ _ executed =>
    intro i
    rw [(Simulator.exec_spec executed).bbCache]
    exact blocks i
  | returned _ _ executed =>
    intro i
    rw [(Simulator.exec_spec executed).bbCache]
    exact blocks i

/-- The step that ends a simulation keeps them too. -/
theorem blocksAligned_stop {status : SimStatus} {last : Simulator}
    (blocks : cfg.sim.BlocksAligned) (stop : step cfg = .stop (.ok (status, last))) :
    last.BlocksAligned := by
  cases step_stop stop with
  | exited _ _ executed =>
    intro i
    rw [(Simulator.exec_spec executed).bbCache]
    exact blocks i
  | failed _ _ executed =>
    intro i
    rw [(Simulator.exec_spec executed).bbCache]
    exact blocks i

/-- A step does not leave the addresses of words. -/
theorem Aligned.step (aligned : cfg.Aligned) (blocks : cfg.sim.BlocksAligned)
    (next : Config.step cfg = .next after) : after.Aligned := by
  cases step_next next with
  | found here found =>
    -- The first step of a block keeps the program counter.
    refine ⟨?_, fun entries same => ?_⟩
    · rw [show _ = cfg.sim.pc from congrArg Core.pc (Simulator.findBb_spec found).2.2.1]
      exact aligned.pc
    · cases same
      exact (blocks.findBb found).2 aligned.pc
  | @called instr rest handler sim here dispatched executed =>
    -- Every instruction goes on to the address of a word.
    refine ⟨Simulator.exec_pc executed aligned.pc, fun entries same => ?_⟩
    cases same
    rcases (aligned.rest _ here).2 with ends | later
    · -- An entry that ends the block does not go on.
      have called : call cfg.sim instr = .ok (.next, sim) := by
        rw [call, dispatched]
        exact executed
      exact (ends.call_ne_next called).elim
    · exact later
  | returned _ _ executed =>
    exact ⟨Simulator.exec_pc executed aligned.pc, fun _ same => by cases same⟩

/-- The step that ends a simulation does so at the address of a word, and crosses no page. -/
theorem Aligned.stop {status : SimStatus} {last : Simulator} (aligned : cfg.Aligned)
    (stop : Config.step cfg = .stop (.ok (status, last))) :
    last.pc.toNat % 4 = 0 ∧ status ≠ .physMemPageAlignError := by
  cases step_stop stop with
  | exited _ _ executed => exact ⟨Simulator.exec_pc executed aligned.pc, by decide⟩
  | failed here dispatched executed =>
    -- A status instruction holds a status that tells of no wrong alignment.
    refine ⟨Simulator.exec_pc executed aligned.pc, fun crosses => ?_⟩
    have held := Simulator.exec_aligned (dispatch_sized dispatched) executed crosses
    exact (aligned.rest _ here).1 status held.2 (.inr crosses)

/-- Runs from the address of a word come to such points alone. -/
theorem aligned_run {sim : Simulator} {startPc : VirtAddr} {n : Nat}
    (blocks : sim.BlocksAligned) (aligned : startPc.toNat % 4 = 0)
    (led : run step n (start sim startPc) = .next cfg) : cfg.Aligned ∧ cfg.sim.BlocksAligned :=
  Transition.invariant (h := fun _ cfg => cfg.Aligned ∧ cfg.sim.BlocksAligned)
    ⟨⟨aligned, fun _ same => by cases same⟩, blocks⟩
    (fun _ _ _ _ _ kept next => ⟨kept.1.step kept.2 next, blocksAligned_step kept.2 next⟩) led

/-- Runs keep the cached blocks as they should be, wherever they start. -/
theorem blocksAligned_run {sim : Simulator} {startPc : VirtAddr} {n : Nat}
    (blocks : sim.BlocksAligned) (led : run step n (start sim startPc) = .next cfg) :
    cfg.sim.BlocksAligned :=
  Transition.invariant (h := fun _ cfg => cfg.sim.BlocksAligned) blocks
    (fun _ _ _ _ _ kept next => blocksAligned_step kept next) led

end Config

namespace Simulator

variable {sim after : Simulator} {startPc : VirtAddr}

/-- A simulator with no cached blocks and any other contents, or that host calls and simulations
made of one. -/
inductive Used : Simulator → Prop
  | fresh {sim : Simulator} : sim.bbCache = {} → Used sim
  | hosted {sim after : Simulator} (call : HostCall) : Used sim → call.exec sim = .ok after →
    Used after
  | simulated {sim after : Simulator} (startPc : VirtAddr) (status : SimStatus) : Used sim →
    sim.Returns startPc (.ok (status, after)) → Used after

/-- The entries of a block that was never filled tell of no wrong alignment. -/
theorem alignedEntries_new : AlignedEntries Bb.new.instrs := by
  refine ⟨fun status held => ?_, .inl (.inl rfl)⟩
  cases held
  decide

/-- Cached blocks are always as they should be. -/
theorem Used.blocksAligned (used : sim.Used) : sim.BlocksAligned := by
  -- By induction on the history.
  induction used with
  | fresh empty =>
    intro i _
    rw [empty]
    exact alignedEntries_new
  | hosted call _ executed blocks =>
    intro i
    rw [(keepsCaches_of_exec executed).bbCache]
    exact blocks i
  | simulated startPc status _ returned blocks =>
    -- A simulation that returned went through steps, and then a last one.
    rcases (returns_iff _ startPc _).1 returned with ⟨n, stopped⟩
    rcases last_of_stop stopped with ⟨m, _, cfg, led, stop⟩
    exact Config.blocksAligned_stop (Config.blocksAligned_run blocks led) stop

/-- No access of a simulation is unaligned or crosses its page where it must not. -/
structure AlignmentSafe (sim : Simulator) (startPc : VirtAddr) : Prop where
  pc : ∀ n cfg, run Config.step n (Config.start sim startPc) = .next cfg →
    cfg.sim.pc.toNat % 4 = 0
  fetches : ∀ n cfg, run Config.step n (Config.start sim startPc) = .next cfg → cfg.rest = none →
    ∀ results after, Bb.Fetches fetch (cfg.sim.pc, cfg.sim) results after → ∀ res ∈ results,
      res.status ≠ .simUnalignedLoad ∧ res.status ≠ .physMemPageAlignError
  loads : ∀ n cfg, run Config.step n (Config.start sim startPc) = .next cfg →
    ∀ id size widen, dispatch id = some (.load size widen) → ∀ va res after,
      cfg.sim.loadInt size .read va = .ok (res, after) → res.status ≠ .physMemPageAlignError
  stores : ∀ n cfg, run Config.step n (Config.start sim startPc) = .next cfg →
    ∀ id size, dispatch id = some (.store size) → ∀ va value status after,
      cfg.sim.storeInt size va value = .ok (status, after) → status ≠ .physMemPageAlignError
  /-- Whatever is translated, its table entries are read without crossing a page. -/
  entries : ∀ n cfg, run Config.step n (Config.start sim startPc) = .next cfg →
    ∀ va, ∀ pa ∈ tableEntries cfg.sim.physMemory cfg.sim.hart.csrFile.satp64 va,
      (cfg.sim.physMemory.read (n := pteBytes) pa 0).status ≠ .physMemPageAlignError
  returns : ∀ status after, sim.Returns startPc (.ok (status, after)) →
    after.pc.toNat % 4 = 0 ∧ status ≠ .physMemPageAlignError

/-- Simulations from the address of a word are safe, whatever was done to the simulator. -/
theorem alignmentSafe (used : sim.Used) (aligned : startPc.toNat % 4 = 0) :
    AlignmentSafe sim startPc := by
  have blocks := used.blocksAligned
  refine
    { pc := ?_
      fetches := ?_
      loads := ?_
      stores := ?_
      entries := ?_
      returns := ?_ }
  · -- Each part holds at every point of a run from the address of a word.
    intro n cfg led
    exact (Config.aligned_run blocks aligned led).1.pc
  · intro n cfg led _ results after fetches res member
    have here := (Config.aligned_run blocks aligned led).1.pc
    exact not_or.1 (fetchesAligned.fetches here fetches res member)
  · intro n cfg _ id size widen dispatched va res after loaded
    exact (loadInt_aligned (dispatch_sized dispatched) loaded).1
  · intro n cfg _ id size dispatched va value status after stored
    exact storeInt_aligned (dispatch_sized dispatched) stored
  · intro n cfg _ va pa member crosses
    exact cfg.sim.physMemory.read_aligned (fits_tableEntries _ pa member) 0 (.inr crosses)
  · -- The simulation returns what its last step returned.
    intro status after returned
    rcases (returns_iff sim startPc _).1 returned with ⟨n, stopped⟩
    rcases last_of_stop stopped with ⟨m, _, cfg, led, stop⟩
    exact (Config.aligned_run blocks aligned led).1.stop stop

/-- A program that loads and stores is safe again after it was run, with its blocks in the cache. -/
theorem alignmentSafe_program : AlignmentSafe afterProgram 0 :=
  alignmentSafe (.simulated 0 .ok (.fresh (show (holdingProgram 0).bbCache = {} from rfl))
    (returns_afterIterations (by decide +kernel))) rfl

end Simulator

end RiscvSim

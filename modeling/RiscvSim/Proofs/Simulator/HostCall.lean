import RiscvSim.Simulator.HostCall
import RiscvSim.Proofs.Simulator.History

/-! Histories of simulations and host calls, and what they leave in the caches. -/

namespace RiscvSim

open Transition

namespace Simulator

/-- The cache that serves a kind of access. -/
def tlb (sim : Simulator) : AccessType → TLB
  | .read => sim.readTlb
  | .write => sim.writeTlb
  | .fetch => sim.fetchTlb

/-- A page has an entry in the cache that serves a kind of access. -/
def Caches (sim : Simulator) (accessType : AccessType) (page : VirtAddr) : Prop :=
  ∃ i, ((sim.tlb accessType).entries i).virtAddr = page ∧
    ((sim.tlb accessType).entries i).host.isSome

/-- A change leaves alone the translations and the words that are cached. -/
structure Harmless (sim after : Simulator) : Prop where
  translations : ∀ accessType page, sim.Caches accessType page →
    after.translateVa accessType page = sim.translateVa accessType page
  words : ∀ va, sim.Holds va → after.fetchAt va = sim.fetchAt va

/-- A change keeps the caches, and every RAM page where it is. -/
structure KeepsCaches (sim after : Simulator) : Prop where
  tlbs : ∀ accessType, after.tlb accessType = sim.tlb accessType
  bbCache : after.bbCache = sim.bbCache
  pages : ∀ page host, sim.physMemory.ram.mapping page = some host →
    after.physMemory.ram.mapping page = some host

variable {sim after : Simulator}

/-- The translation caches agree with the tables exactly when each of them does. -/
theorem tlbsCoherent_iff : sim.TlbsCoherent ↔ ∀ accessType,
    (sim.tlb accessType).Coherent sim.physMemory.ram.mapping (sim.translateVa accessType) := by
  constructor
  · intro coherent accessType
    cases accessType with
    | read => exact coherent.read
    | write => exact coherent.write
    | fetch => exact coherent.fetch
  · intro each
    exact ⟨each .read, each .write, each .fetch⟩

/-- A harmless change that keeps the caches keeps them right. -/
theorem CachesCoherent.harmless (coherent : sim.CachesCoherent) (keeps : sim.KeepsCaches after)
    (harmless : sim.Harmless after) : after.CachesCoherent := by
  refine ⟨tlbsCoherent_iff.mpr fun accessType i => ?_,
    coherent.blocks.congr harmless.words keeps.bbCache⟩
  -- The entries are the old ones, so only what they say has to be looked at.
  rw [keeps.tlbs]
  rcases tlbsCoherent_iff.mp coherent.tlbs accessType i with
    empty | ⟨aligned, pa, host, translated, mapped, held⟩
  · exact .inl empty
  · rw [← harmless.translations accessType _ ⟨i, rfl, by rw [held]; rfl⟩] at translated
    exact .inr ⟨aligned, pa, host, translated, keeps.pages _ _ mapped, held⟩

/-- A host call keeps the caches and the RAM pages. -/
theorem keepsCaches_of_exec {call : HostCall} (result : call.exec sim = .ok after) :
    sim.KeepsCaches after := by
  cases call with
  | setSatp64 value =>
    cases result
    exact ⟨fun accessType => by cases accessType <;> rfl, rfl, fun _ _ found => found⟩
  | setMstatus64 value =>
    cases result
    exact ⟨fun accessType => by cases accessType <;> rfl, rfl, fun _ _ found => found⟩
  | writeCsr idx value =>
    cases result
    exact ⟨fun accessType => by cases accessType <;> rfl, rfl, fun _ _ found => found⟩
  | writeGpr idx value =>
    simp only [HostCall.exec] at result
    split at result
    · cases result
    · cases result
      exact ⟨fun accessType => by cases accessType <;> rfl, rfl, fun _ _ found => found⟩
  | writeMemory n physAddr value =>
    cases result
    -- Writing changes bytes, and the pages stay where they are.
    refine ⟨fun accessType => by cases accessType <;> rfl, rfl, fun page host found => ?_⟩
    change (sim.physMemory.write physAddr value).2.ram.mapping page = some host
    rw [PhysMemory.write_ram]
    exact found
  | addRAMPage page =>
    -- Adding a page moves no other page.
    simp only [HostCall.exec] at result
    split at result
    · cases result
    · rename_i fresh physMemory added
      cases result
      exact ⟨fun accessType => by cases accessType <;> rfl, rfl,
        PhysMemory.addRAMPage_keeps added⟩

/-- A simulator that was just constructed, or that simulations and host calls led to. -/
inductive Reached : Simulator → Prop
  | new : Reached {}
  | hosted {sim after : Simulator} (call : HostCall) : Reached sim → call.exec sim = .ok after →
    Reached after
  | simulated {sim after : Simulator} (startPc : VirtAddr) (status : SimStatus) : Reached sim →
    sim.Returns startPc (.ok (status, after)) → Reached after

/-- A simulator that was reached without a change to anything cached. -/
inductive ReachedQuietly : Simulator → Prop
  | new : ReachedQuietly {}
  | hosted {sim after : Simulator} (call : HostCall) : ReachedQuietly sim →
    call.exec sim = .ok after → sim.Harmless after → ReachedQuietly after
  | simulated {sim after : Simulator} (startPc : VirtAddr) (status : SimStatus) :
    ReachedQuietly sim → (Config.start sim startPc).QuietRun →
    sim.Returns startPc (.ok (status, after)) → ReachedQuietly after

/-- The step that ends a simulation keeps the caches right. -/
theorem CachesCoherent.of_stop {cfg : Config} {room : Option Nat} {status : SimStatus}
    (valid : cfg.Valid room) (quiet : cfg.Quiet)
    (stop : Config.step cfg = .stop (.ok (status, after))) : after.CachesCoherent := by
  -- The handler that returned did not store, so everything cached is as before.
  have kept {instr : Instr} {rest : List Instr} {handler : Handler} {returned : SimStatus}
      (here : cfg.rest = some (instr :: rest)) (dispatched : dispatch instr.id = some handler)
      (executed : handler.exec cfg.sim instr = .ok (.ret returned, after)) :
      after.CachesCoherent := by
    have called : call cfg.sim instr = .ok (.ret returned, after) := by
      simp only [call, dispatched, executed]
    have lifted := quiet.call_lifted valid.tlbs here
    rw [called] at lifted
    obtain ⟨plain, _, tracks⟩ := lifted.of_ok
    have memory : after.physMemory = cfg.sim.physMemory :=
      (exec_spec executed).memory fun never => Flow.noConfusion never
    have translation (accessType : AccessType) (va : VirtAddr) :
        after.translateVa accessType va = cfg.sim.translateVa accessType va := by
      rw [translateVa, translateVa, memory, tracks.csrFile]
    refine ⟨tracks.coherent translation, valid.blocks.congr (fun va _ => ?_) tracks.bbCache⟩
    exact fetchAt_congr (translation .fetch va) fun _ _ _ _ => by rw [memory]
  cases Config.step_stop stop with
  | exited here dispatched executed => exact kept here dispatched executed
  | failed here dispatched executed => exact kept here dispatched executed

/-- A quiet simulation that starts with the right caches ends with the right ones. -/
theorem CachesCoherent.simulated {startPc : VirtAddr} {status : SimStatus}
    (coherent : sim.CachesCoherent) (quiet : (Config.start sim startPc).QuietRun)
    (returned : sim.Returns startPc (.ok (status, after))) : after.CachesCoherent := by
  -- The simulation went through steps, and its last step stopped it.
  obtain ⟨n, stopped⟩ := (sim.returns_iff startPc _).mp returned
  obtain ⟨m, _, cfg, led, stop⟩ := last_of_stop stopped
  -- Up to that step the caches were valid.
  have together := (coherent.valid startPc).lockstep (n := m) quiet
  rw [led] at together
  obtain ⟨state, _, _, valid, _⟩ := together.of_next
  exact .of_stop valid (quiet m cfg led) stop

/-- Quiet histories leave caches that are right. -/
theorem ReachedQuietly.cachesCoherent (reached : sim.ReachedQuietly) : sim.CachesCoherent := by
  -- By induction on the history.
  induction reached with
  | new =>
    -- A new simulator has empty caches.
    obtain ⟨valid, _⟩ := Config.valid_of_fresh (show Fresh {} from ⟨rfl, rfl, rfl, rfl⟩) 0
    exact ⟨⟨valid.tlbs.read, valid.tlbs.write, valid.tlbs.fetch⟩, valid.blocks⟩
  | hosted call _ executed harmless coherent =>
    exact coherent.harmless (keepsCaches_of_exec executed) harmless
  | simulated startPc status _ quiet returned coherent =>
    exact coherent.simulated quiet returned

/-- After quiet histories, quiet simulations from the same registers and bytes agree. -/
theorem agree_of_quiet {left right : Simulator} {startPc : VirtAddr}
    (leftReached : left.ReachedQuietly) (rightReached : right.ReachedQuietly)
    (view : left.SameView right) (leftQuiet : (Config.start left startPc).QuietRun)
    (rightQuiet : (Config.start right startPc).QuietRun) : left.Agree right startPc :=
  agree_of_coherent leftReached.cachesCoherent rightReached.cachesCoherent view leftQuiet rightQuiet

/-- A quiet history is a history. -/
theorem ReachedQuietly.reached (reached : sim.ReachedQuietly) : sim.Reached := by
  induction reached with
  | new => exact .new
  | hosted call _ executed _ reached => exact .hosted call reached executed
  | simulated startPc status _ _ returned reached =>
    exact .simulated startPc status reached returned

/-- With empty caches every change is harmless. -/
theorem Fresh.harmless (fresh : sim.Fresh) : sim.Harmless after := by
  refine ⟨fun accessType page ⟨i, _, held⟩ => ?_,
    fun va held => ((Config.valid_of_fresh fresh 0).2 va held).elim⟩
  -- An entry that is cached has a host page, and an empty cache has none.
  obtain ⟨read, write, fetch, _⟩ := fresh
  cases accessType with
  | read => rw [tlb, read] at held; cases held
  | write => rw [tlb, write] at held; cases held
  | fetch => rw [tlb, fetch] at held; cases held

/-- A host adds a page and writes a word. -/
theorem reachedQuietly_holdingWord (physAddr : PhysAddr) (word : InstrCode) :
    (holdingWord physAddr word).ReachedQuietly := by
  obtain ⟨added, result, _⟩ :=
    PhysMemory.new.addRAMPage_eq (pageBase physAddr) (pageBase_pageBase physAddr)
  have page : ReachedQuietly { physMemory := added } :=
    .hosted (.addRAMPage (pageBase physAddr)) .new
      (by simp only [HostCall.exec, result]) (Fresh.harmless ⟨rfl, rfl, rfl, rfl⟩)
  have written : (HostCall.writeMemory 4 physAddr word).exec { physMemory := added } =
      .ok (holdingWord physAddr word) := by
    simp only [HostCall.exec, holdingWord, PhysMemory.holdingWord, result]
  exact .hosted _ page written (Fresh.harmless ⟨rfl, rfl, rfl, rfl⟩)

/-- The host may write further words while the caches are empty. -/
theorem ReachedQuietly.writeWords (reached : sim.ReachedQuietly) (fresh : sim.Fresh)
    (words : List (PhysAddr × InstrCode)) : (sim.writeWords words).ReachedQuietly := by
  induction words generalizing sim with
  | nil => exact reached
  | cons word rest ih =>
    exact ih (.hosted (.writeMemory 4 word.1 word.2) reached rfl fresh.harmless) fresh

/-- The simulator that some iterations of a simulation leave. -/
def afterIterations (sim : Simulator) (startPc : VirtAddr) (iterations : Nat) : Simulator :=
  match sim.simulate startPc iterations with
  | .ok (_, after) => after
  | .error _ => sim

/-- Iterations that end the simulation leave what it returns. -/
theorem returns_afterIterations {startPc : VirtAddr} {iterations : Nat} {status : SimStatus}
    (ended : returnedStatus (sim.simulate startPc iterations) = some status) :
    sim.Returns startPc (.ok (status, sim.afterIterations startPc iterations)) := by
  refine ⟨iterations, ?_⟩
  rw [afterIterations]
  cases simulated : sim.simulate startPc iterations with
  | error why =>
    rw [simulated] at ended
    cases ended
  | ok result =>
    obtain ⟨last, after⟩ := result
    rw [simulated] at ended
    cases (show last = some status from ended)
    rfl

/-- An environment call changes neither the registers that are kept nor memory. -/
theorem view_of_ecall {startPc : VirtAddr} {status : SimStatus}
    (first : (Config.start sim startPc).firstEntry = some (Instr.decode 0x73))
    (returned : sim.Returns startPc (.ok (status, after))) :
    sim.SameView after ∧ after.physMemory = sim.physMemory := by
  -- There is one result, which the first entry gives.
  obtain ⟨found, ⟨core, memory⟩, other⟩ := Config.returns_of_firstEntry
    (r := fun sim => .ok (.ok, { sim with toCore := sim.toCore.incr }))
    first fun _ _ => Config.step_ecall
  obtain ⟨m, left⟩ := (returns_iff _ _ _).mp returned
  obtain ⟨n, right⟩ := (returns_iff _ _ _).mp other
  have same := (Prod.mk.inj (Except.ok.inj (stop_unique left right))).2
  refine ⟨⟨?_, ?_, ?_⟩, ?_⟩ <;> rw [same]
  · exact (congrArg (fun core : Core => core.hart.gprFile) core.symm :)
  · exact (congrArg (fun core : Core => core.hart.csrFile) core.symm :)
  · exact congrArg PhysMemory.bytes memory.symm
  · exact memory

/-- A simulator that has run its program. -/
def afterProgram : Simulator := (holdingProgram 0).afterIterations 0 2

/-- The same simulator after an environment call whose block takes the place of the first one. -/
def afterProgramEcall : Simulator := afterProgram.afterIterations 0x200 1

/-- Running the program is a quiet history. -/
theorem reachedQuietly_afterProgram : afterProgram.ReachedQuietly := by
  have reached : (holdingProgram 0).ReachedQuietly :=
    (reachedQuietly_holdingWord 0 0x00000317).writeWords ⟨rfl, rfl, rfl, rfl⟩ _
  have quiet : (Config.start (holdingProgram 0) 0).QuietRun :=
    Config.quietRun_of_checked (programWords 0) 8 (reached.cachesCoherent.valid 0) (by decide +kernel)
      (by decide +kernel) (by decide +kernel)
  exact .simulated 0 .ok reached quiet (returns_afterIterations (by decide +kernel))

/-- Making the environment call after the program is a quiet history as well. -/
theorem reachedQuietly_afterProgramEcall : afterProgramEcall.ReachedQuietly := by
  have reached := reachedQuietly_afterProgram
  have quiet : (Config.start afterProgram 0x200).QuietRun :=
    Config.quietRun_of_checked (programWords 0) 8 (reached.cachesCoherent.valid 0x200)
      (by decide +kernel) (by decide +kernel) (by decide +kernel)
  exact .simulated 0x200 .ok reached quiet (returns_afterIterations (by decide +kernel))

/-- The program runs alike with its first block in the cache and without. -/
theorem agree_of_quiet_program : afterProgram.Agree afterProgramEcall 0 := by
  have first : (Config.start afterProgram 0x200).firstEntry = some (Instr.decode 0x73) := by
    decide +kernel
  have returned : afterProgram.Returns 0x200 (.ok (.ok, afterProgramEcall)) :=
    returns_afterIterations (by decide +kernel)
  obtain ⟨view, _⟩ := view_of_ecall first returned
  have left := reachedQuietly_afterProgram
  have right := reachedQuietly_afterProgramEcall
  exact agree_of_quiet left right view
    (Config.quietRun_of_checked (programWords 0) 8 (left.cachesCoherent.valid 0) (by decide +kernel)
      (by decide +kernel) (by decide +kernel))
    (Config.quietRun_of_checked (programWords 0) 8 (right.cachesCoherent.valid 0) (by decide +kernel)
      (by decide +kernel) (by decide +kernel))

/-- A simulator that has simulated an environment call. -/
def afterEcall : Simulator := (holdingWord 0 0x73).afterIterations 0 1

/-- Zero over the first word. -/
def zeroed (sim : Simulator) : Simulator :=
  { sim with physMemory := (sim.physMemory.write (n := 4) 0 0).2 }

/-- A block that was cached is executed though the host has overwritten it. -/
theorem not_agree_stale :
    ¬∀ (left right : Simulator) (startPc : VirtAddr), left.Reached → right.Reached →
      left.SameView right → left.Agree right startPc := by
  intro agree
  have returned : (holdingWord 0 0x73).Returns 0 (.ok (.ok, afterEcall)) :=
    returns_afterIterations (by decide +kernel)
  obtain ⟨view, memory⟩ := view_of_ecall firstEntry_ecall returned
  have before := (reachedQuietly_holdingWord 0 0x73).reached
  -- The history with the simulation holds the block, and the other one holds none.
  have stale : afterEcall.zeroed.Reached :=
    .hosted (.writeMemory 4 0 0) (.simulated 0 .ok before returned) rfl
  have clean : (holdingWord 0 0x73).zeroed.Reached := .hosted (.writeMemory 4 0 0) before rfl
  have same : afterEcall.zeroed.SameView (holdingWord 0 0x73).zeroed := by
    refine ⟨view.gprFile.symm, view.csrFile.symm, ?_⟩
    rw [zeroed, zeroed, memory]
  -- The cached environment call returns that all is well.
  have cached : (Config.start afterEcall.zeroed 0).firstEntry = some (Instr.decode 0x73) := by
    decide +kernel
  obtain ⟨_, _, left⟩ := Config.returns_of_firstEntry
    (r := fun sim => .ok (.ok, { sim with toCore := sim.toCore.incr }))
    cached fun _ _ => Config.step_ecall
  -- The word that is there now cannot be decoded.
  have fetched : (Config.start (holdingWord 0 0x73).zeroed 0).firstEntry =
      some (Instr.statusInstr .simNotImplementedInstr) := by decide +kernel
  obtain ⟨_, _, right⟩ := Config.returns_of_firstEntry
    (r := fun sim => .ok (.simNotImplementedInstr, sim)) fetched
    fun _ _ here => Config.step_statusInstr here (by decide) (by decide)
  -- If they agreed, both results would be those of one run.
  obtain ⟨other, alike, _⟩ := (agree _ _ 0 stale clean same).1 _ _ left
  obtain ⟨m, leftStop⟩ := (returns_iff _ _ _).mp alike
  obtain ⟨n, rightStop⟩ := (returns_iff _ _ _).mp right
  cases stop_unique leftStop rightStop

end Simulator

end RiscvSim

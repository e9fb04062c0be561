import RiscvSim.Proofs.Memory.Reach
import RiscvSim.Proofs.Simulator.Dispatch
import RiscvSim.Proofs.Simulator.Tlb

/-! A guest keeps to the pages that were mapped for it, and translation caches stay right. -/

namespace RiscvSim

open Transition
open PhysMemory (Fits)

/-- The page of a call lets the guest read and write. -/
def MapCall.UserWritable (call : MapCall) : Prop :=
  call.status = .ok ∧ call.flags.u = true ∧ call.flags.r = true ∧ call.flags.w = true

section isolation

variable {mode : ModeValue} {first last : PPN} {levels : Nat} {history : List MapCall}
  {mapper : SimpleMemoryMapper} {memory : PhysMemory}

/-- A guest writes to the pages of calls with the right flags, which are not in the region. -/
theorem Built.write_target (built : Built mode first last history mapper memory)
    (translating : modeToLevels mode = .ok levels) (small : last.toNat ≤ 2 ^ 44)
    (ppns : ∀ call ∈ history, call.ppn.toNat < 2 ^ 44) {asid : BitVec 16} {mstatus64 : MSTATUS64}
    {va pa : VirtAddr}
    (found : translate memory mstatus64 ⟨mode, asid, first⟩ .user .write va = .ok ⟨.ok, pa⟩) :
    ∃ call ∈ history, call.UserWritable ∧ pa.toNat / 4096 = call.ppn.toNat ∧
      ¬(first.toNat ≤ pa.toNat / 4096 ∧ pa.toNat / 4096 < last.toNat) := by
  obtain ⟨call, member, ok, _, admitted, rfl⟩ :=
    (built.translate_ok_iff translating small _ _ _ _ _ _).mp found
  -- The page that is reached is the one of the call.
  have page := page_calcPhysAddr call.mapping va
  rw [show call.mapping.ppn = call.ppn from rfl, Nat.mod_eq_of_lt (ppns call member)] at page
  refine ⟨call, member, ?_, page, ?_⟩
  · -- A page that is writable and admitted is readable and the user's.
    simp only [admits, checkLeafFlags, Bool.and_eq_true, Bool.or_eq_true, Bool.not_eq_true']
      at admitted
    obtain ⟨⟨_, readable⟩, writable, user⟩ := admitted
    refine ⟨ok, ?_, ?_, writable⟩
    · simpa using user
    · simpa [writable] using readable
  · rw [page]
    exact built.outside small translating member ok

/-- A memory that differs from another in the pages of a guest alone. -/
structure Guarded (history : List MapCall) (first last : PPN) (memory after : PhysMemory) :
    Prop where
  tables : ∀ addr : PhysAddr, first.toNat ≤ addr.toNat / 4096 → addr.toNat / 4096 < last.toNat →
    after.bytes addr = memory.bytes addr
  changed : ∀ addr : PhysAddr, after.bytes addr ≠ memory.bytes addr →
    ∃ call ∈ history, call.UserWritable ∧ addr.toNat / 4096 = call.ppn.toNat

/-- A write to a page of the guest changes nothing else. -/
theorem Guarded.write {after : PhysMemory} (guarded : Guarded history first last memory after)
    {pa : PhysAddr} {n : Nat} {value : BitVec (8 * n)} {call : MapCall} (member : call ∈ history)
    (writable : call.UserWritable) (page : pa.toNat / 4096 = call.ppn.toNat)
    (outside : ¬(first.toNat ≤ pa.toNat / 4096 ∧ pa.toNat / 4096 < last.toNat))
    (ok : (after.write pa value).1.status = .ok) :
    Guarded history first last memory (after.write pa value).2 := by
  have bytes := (PhysMemory.write_ok ok).1
  have fits : Fits pa n := by
    rw [PhysMemory.write_status] at ok
    exact (PhysMemory.accessStatus_ok_iff.mp ok).1
  -- The bytes that are written lie in the page of the first one.
  have samePage (addr : PhysAddr) (inside : ByteStore.InRun pa n addr) :
      addr.toNat / 4096 = pa.toNat / 4096 :=
    (pageBase_eq_iff addr pa).mp (PhysMemory.pageBase_of_inRun fits inside)
  constructor
  · intro addr lower upper
    -- A byte of the region is in no page of the guest.
    rw [bytes, ByteStore.put, if_neg, guarded.tables addr lower upper]
    intro inside
    rw [samePage addr inside] at lower upper
    exact outside ⟨lower, upper⟩
  · intro addr different
    -- A byte has changed now, or it had changed before.
    by_cases inside : ByteStore.InRun pa n addr
    · exact ⟨call, member, writable, (samePage addr inside).trans page⟩
    · rw [bytes, ByteStore.put, if_neg inside] at different
      exact guarded.changed addr different

/-- Translation is the same over any memory with the same tables. -/
theorem Built.translate_guarded (built : Built mode first last history mapper memory)
    (translating : modeToLevels mode = .ok levels) (small : last.toNat ≤ 2 ^ 44)
    {after : PhysMemory} (guarded : Guarded history first last memory after) (asid : BitVec 16)
    (mstatus64 : MSTATUS64) (privLevel : PrivLevel) (accessType : AccessType) (va : VirtAddr) :
    translate after mstatus64 ⟨mode, asid, first⟩ privLevel accessType va =
      translate memory mstatus64 ⟨mode, asid, first⟩ privLevel accessType va := by
  obtain ⟨_, rfl, rfl, tables, represents⟩ :=
    built.represents small translating (modeToLevels_bounds translating)
  -- The tables are the same in both, so they spell the same mappings.
  have later := represents.congr_bytes fun addr inside => guarded.tables addr inside.1 inside.2
  rw [translate_eq represents translating, translate_eq later translating]

/-- What a run of a guest keeps of the simulator that it started in. -/
structure Simulator.Kept (history : List MapCall) (first last : PPN) (sim later : Simulator) :
    Prop where
  csrFile : later.hart.csrFile = sim.hart.csrFile
  guarded : Guarded history first last sim.physMemory later.physMemory
  coherent : later.TlbsCoherent

section guest

variable {sim later after : Simulator} (built : Built mode first last history mapper sim.physMemory)
  (translating : modeToLevels mode = .ok levels) (small : last.toNat ≤ 2 ^ 44)
  (selected : sim.hart.csrFile.satp64.mode = mode ∧ sim.hart.csrFile.satp64.ppn = first)

include built translating small selected

/-- Every address is translated as at first. -/
theorem Built.translateVa_guarded (csrFile : later.hart.csrFile = sim.hart.csrFile)
    (guarded : Guarded history first last sim.physMemory later.physMemory)
    (accessType : AccessType) (va : VirtAddr) :
    later.translateVa accessType va = sim.translateVa accessType va := by
  obtain ⟨rfl, rfl⟩ := selected
  -- The control registers still select the builder's tables.
  rw [Simulator.translateVa, Simulator.translateVa, csrFile]
  exact built.translate_guarded translating small guarded _ _ _ _ _

/-- A handler keeps what a run of a guest keeps. -/
theorem Built.kept_exec (ppns : ∀ call ∈ history, call.ppn.toNat < 2 ^ 44)
    (kept : Simulator.Kept history first last sim later) {handler : Handler} {instr : Instr}
    {flow : Flow} (sized : handler.Sized)
    (executed : handler.exec later instr = .ok (flow, after)) :
    Simulator.Kept history first last sim after := by
  obtain ⟨csrFile, guarded, coherent⟩ := kept
  have translation := built.translateVa_guarded translating small selected csrFile guarded
  have lifted : Lifted (Simulator.Tracks later (Guarded history first last sim.physMemory))
      (· = .invalidPointer) (handler.exec later instr) (handler.exec later.plain instr) := by
    refine coherent.exec guarded sized instr (fun _ _ _ => rfl) ?_
    -- A store goes where translation lets the guest write.
    intro n va pa value _ _ found ok
    rw [translation, Simulator.translateVa] at found
    obtain ⟨rfl, rfl⟩ := selected
    obtain ⟨call, member, writable, page, outside⟩ :=
      built.write_target translating small ppns found
    exact guarded.write member writable page outside ok
  rw [executed] at lifted
  obtain ⟨plain, _, tracks⟩ := lifted.of_ok
  -- Handlers keep the control registers, so the translation is that of the start.
  have csrAfter := tracks.csrFile.trans csrFile
  refine ⟨csrAfter, tracks.good, tracks.coherent fun accessType va => ?_⟩
  rw [translation, built.translateVa_guarded translating small selected csrAfter tracks.good]

/-- A run keeps the pages of the tables, and its caches stay coherent. -/
theorem Built.kept_of_visits (ppns : ∀ call ∈ history, call.ppn.toNat < 2 ^ 44)
    (empty : sim.readTlb = {} ∧ sim.writeTlb = {} ∧ sim.fetchTlb = {}) {startPc : VirtAddr}
    (visits : (Config.start sim startPc).Visits after) :
    Simulator.Kept history first last sim after := by
  have exec {cfg : Config} {instr : Instr} {handler : Handler} {flow : Flow} {later : Simulator}
      (kept : Simulator.Kept history first last sim cfg.sim)
      (dispatched : dispatch instr.id = some handler)
      (executed : handler.exec cfg.sim instr = .ok (flow, later)) :=
    built.kept_exec translating small selected ppns kept (dispatch_sized dispatched) executed
  -- Everything holds at the start, and each step keeps it.
  refine Config.visits_invariant ?_ ?_ ?_ visits
  · obtain ⟨read, write, fetch⟩ := empty
    refine ⟨rfl, ⟨fun _ _ _ => rfl, fun _ different => absurd rfl different⟩, ?_, ?_, ?_⟩
    · rw [show (Config.start sim startPc).sim.readTlb = {} from read]
      exact TLB.coherent_empty
    · rw [show (Config.start sim startPc).sim.writeTlb = {} from write]
      exact TLB.coherent_empty
    · rw [show (Config.start sim startPc).sim.fetchTlb = {} from fetch]
      exact TLB.coherent_empty
  · intro cfg later kept next
    cases Config.step_next next with
    -- Finding a block changes caches alone.
    | found _ found =>
      obtain ⟨core, memory⟩ := (Simulator.findBb_spec found).2.2
      exact ⟨(congrArg (·.hart.csrFile) core).trans kept.csrFile, by rw [memory]; exact kept.guarded,
        kept.coherent.findBb found⟩
    | called _ dispatched executed => exact exec kept dispatched executed
    | returned _ dispatched executed => exact exec kept dispatched executed
  · -- The last step is the step of a handler as well.
    intro cfg status later kept stop
    cases Config.step_stop stop with
    | exited _ dispatched executed => exact exec kept dispatched executed
    | failed _ dispatched executed => exact exec kept dispatched executed

end guest

/-- What a guest can have done to a simulator that it started in. -/
structure Simulator.Isolated (history : List MapCall) (first last : PPN)
    (sim after : Simulator) : Prop where
  /-- Only pages that the guest may read and write have changed, and no page of the region. -/
  memory : Guarded history first last sim.physMemory after.physMemory
  /-- Every address is translated as at first. -/
  translation : ∀ accessType va,
    after.translateVa accessType va = sim.translateVa accessType va
  /-- The entries of the translation caches are empty or agree with the tables. -/
  coherent : after.TlbsCoherent

/-- A guest in the pages that a history of calls mapped keeps to them, whatever it does. -/
theorem Built.isolates {sim after : Simulator} {startPc : VirtAddr}
    (built : Built mode first last history mapper sim.physMemory)
    (translating : modeToLevels mode = .ok levels) (small : last.toNat ≤ 2 ^ 44)
    (ppns : ∀ call ∈ history, call.ppn.toNat < 2 ^ 44)
    (selected : sim.hart.csrFile.satp64.mode = mode ∧ sim.hart.csrFile.satp64.ppn = first)
    (empty : sim.readTlb = {} ∧ sim.writeTlb = {} ∧ sim.fetchTlb = {})
    (visits : (Config.start sim startPc).Visits after) :
    sim.Isolated history first last after := by
  have kept := built.kept_of_visits translating small selected ppns empty visits
  exact ⟨kept.guarded,
    built.translateVa_guarded translating small selected kept.csrFile kept.guarded, kept.coherent⟩

/-- A simulator that starts with a memory and three levels of tables in it. -/
def Simulator.withTables (rootTable : PPN) (memory : PhysMemory) : Simulator where
  hart := { csrFile := { satp64 := ⟨.sv39, 0, rootTable⟩ } }
  physMemory := memory

/-- The call that maps the page of the program. -/
def programCall : MapCall := ⟨⟨0x1e⟩, 5, 100, .ok⟩

/-- A guest that executes, loads and stores in its page keeps to it in every state. -/
theorem Built.isolates_program : ∃ mapper memory, Built .sv39 1 8 [programCall] mapper memory ∧
    (∃ n, Simulator.returnedStatus ((Simulator.withTables 1 memory).simulate 0x5000 n) = some .ok) ∧
    ∀ after, (Config.start (Simulator.withTables 1 memory) 0x5000).Visits after →
      Simulator.Isolated [programCall] 1 8 (Simulator.withTables 1 memory) after := by
  -- The program is in memory before the page is mapped, and it comes to its end.
  have checked : (buildTables .sv39 1 8 (Simulator.holdingProgram 0x64000).physMemory
      [programCall]).any (fun made => Simulator.returnedStatus
        ((Simulator.withTables 1 made.2).simulate 0x5000 2) == some .ok) = true := by
    decide +kernel
  obtain ⟨⟨mapper, memory⟩, computed, ended⟩ := (Option.any_eq_true _ _).mp checked
  have built := Built.of_buildTables computed
  refine ⟨_, _, built, ⟨2, eq_of_beq ended⟩, fun after visits => ?_⟩
  exact Built.isolates built (show modeToLevels .sv39 = .ok 3 from rfl) (by decide) (by decide)
    ⟨rfl, rfl⟩ ⟨rfl, rfl, rfl⟩ visits

end isolation

end RiscvSim

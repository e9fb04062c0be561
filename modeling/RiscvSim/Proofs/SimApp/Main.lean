import RiscvSim.Proofs.SimApp.Iterations
import RiscvSim.Proofs.SimApp.Program

/-! The application runs a program as a hart of the instruction set does. -/

namespace RiscvSim

open Rv64i Transition
open ElfLoader

namespace SimApp

variable {file : ElfFile} {n : Nat} {simulator sim : Simulator} {startPc : RegValue}

/-- A simulator is loaded by the loader's steps in turn. -/
theorem load_ok_iff :
    load n simulator (some file) = .ok (some (sim, startPc)) ↔
      ∃ created start startSp loader memory gprFile later after,
        ElfLoader.new simulator.physMemory = .ok (created, start) ∧
        created.mapStack start = .ok (.ok, startSp, loader, memory) ∧
        simulator.hart.gprFile.write GPRFile.sp startSp = .ok gprFile ∧
        loader.loadElf n memory file = .ok (some ⟨.ok, startPc⟩, later, after) ∧
        sim = { simulator with
          hart := { simulator.hart with
            gprFile := gprFile
            csrFile := simulator.hart.csrFile.setSatp64 (SATP64.setMODE {} .sv39) }
          physMemory := after } := by
  constructor
  · intro loaded
    unfold load at loaded
    split at loaded
    · cases loaded
    · rename_i created start new
      split at loaded
      · cases loaded
      · rename_i status startSp loader memory stackMapped
        split at loaded
        · cases loaded
        · rename_i stackOk
          split at loaded
          · cases loaded
          · rename_i gprFile written
            dsimp only at loaded
            split at loaded
            · cases loaded
            · cases loaded
            · rename_i res later after elfLoaded
              split at loaded
              · cases loaded
              · rename_i ok
                obtain ⟨status, pc⟩ := res
                cases Decidable.not_not.mp ok
                rw [Decidable.not_not.mp stackOk] at stackMapped
                cases loaded
                exact ⟨created, start, startSp, loader, memory, gprFile, later, after, new,
                  stackMapped, written, elfLoaded, rfl⟩
  · rintro ⟨created, start, startSp, loader, memory, gprFile, later, after, new, stackMapped,
      written, elfLoaded, rfl⟩
    simp only [load, new, stackMapped, written, elfLoaded, ne_eq, not_true, if_false]

end SimApp

namespace ElfLoader

/-- Mapping a page keeps the place of the stack. -/
theorem stackBase_mapPage {loader later : ElfLoader} {memory after : PhysMemory} {vpn : VPN}
    {status : SimStatus} (mapped : loader.mapPage memory vpn = .ok (status, later, after)) :
    later.stackBase = loader.stackBase := by
  unfold mapPage at mapped
  split at mapped
  · -- Without translation the loader stays as it is.
    split at mapped
    · cases mapped
    · split at mapped <;> cases mapped
      rfl
  · dsimp only at mapped
    split at mapped
    · cases mapped
    · split at mapped
      · split at mapped
        · cases mapped
        · cases mapped
          unfold insert
          split <;> rfl
      · cases mapped

/-- Mapping pages in turn keeps the place of the stack. -/
theorem MapsPages.stackBase {vpns : List VPN} {loader later : ElfLoader}
    {memory after : PhysMemory} (maps : MapsPages vpns loader memory later after) :
    later.stackBase = loader.stackBase := by
  induction maps with
  | nil => rfl
  | cons mapped _ ih => exact ih.trans (stackBase_mapPage mapped)

/-- The initial stack pointer is the end of the stack. -/
theorem mapStack_startSp {created loader : ElfLoader} {memory after : PhysMemory}
    {startSp : RegValue} (base : created.stackBase = defaultStackBase)
    (size : created.stackSize = defaultStackSize)
    (stackMapped : created.mapStack memory = .ok (.ok, startSp, loader, after)) :
    startSp = 0x10000000000 := by
  have kept := (mapStack_ok base size stackMapped).stackBase
  unfold mapStack at stackMapped
  dsimp only at stackMapped
  split at stackMapped
  · cases stackMapped
  · split at stackMapped
    · rename_i failed
      cases stackMapped
      exact absurd rfl failed
    · cases stackMapped
      rw [kept, base]
      decide

end ElfLoader

namespace SimApp

variable {file : ElfFile} {n : Nat} {sim : Simulator} {startPc : RegValue}

/-- Writing the stack pointer to new registers gives those of a program. -/
theorem write_startSp : GPRFile.new.write GPRFile.sp 0x10000000000 = .ok ElfFile.startGprs :=
  GPRFile.write_setWidth GPRFile.new 2 0x10000000000

/-- A program that was loaded starts with its own hart and memory, and with empty caches. -/
theorem program_of_load (complete : file.Complete) (wellFormed : WellFormed file)
    (loaded : load n {} (some file) = .ok (some (sim, startPc))) :
    startPc = file.eEntry ∧ sim.Fresh ∧ (sim.start startPc).plain.Space 39 ∧
      (sim.start startPc).plain.flat 39 = file.flat := by
  obtain ⟨created, start, startSp, loader, memory, gprFile, later, after, new, stackMapped, written,
    elfLoaded, rfl⟩ := load_ok_iff.mp loaded
  obtain ⟨_, base, size⟩ := Loading.new new
  cases mapStack_startSp base size stackMapped
  cases write_startSp.symm.trans written
  cases ((loadElf_ok_iff complete).mp elfLoaded).2
  obtain ⟨history, loading, numbers, stack, placed⟩ :=
    placed_of_loaded complete new stackMapped elfLoaded fun seg member isLoad =>
      wellFormed.loadable (mem_loadSegs.mpr ⟨member, isLoad⟩)
  refine ⟨rfl, ⟨rfl, rfl, rfl, rfl⟩, ?_, loading.flat_eq wellFormed numbers stack placed⟩
  exact Built.space_of_unshared loading.built (show modeToLevels .sv39 = .ok 3 from rfl) (by decide)
    ⟨rfl, rfl⟩ loading.ppn_lt loading.unshared

/-- A well-formed program whose pages can be mapped is loaded. -/
theorem load_of_mappable (complete : file.Complete) (wellFormed : WellFormed file)
    (mappable : Mappable (imageVpns file)) :
    ∃ n sim, load n {} (some file) = .ok (some (sim, file.eEntry)) := by
  obtain ⟨created, start, loader, memory, later, after, startSp, startPc, n, new, stackMapped,
    elfLoaded, _⟩ := (wellFormed.loadsImage_iff_mappable complete).mpr mappable
  obtain ⟨_, base, size⟩ := Loading.new new
  cases mapStack_startSp base size stackMapped
  cases ((loadElf_ok_iff complete).mp elfLoaded).2
  exact ⟨n, _, load_ok_iff.mpr ⟨created, start, _, loader, memory, _, later, after, new, stackMapped,
    write_startSp, elfLoaded, rfl⟩⟩

/-- The lines of registers are those of their numbers. -/
theorem dumpGprsFrom_eq (gprFile : GPRFile) {count i : Nat} (inside : i + count ≤ 32) :
    dumpGprsFrom gprFile count i =
      .ok ((List.range' i count).map fun i =>
        gprLine i (gprFile.regs.value (BitVec.ofNat 5 i))) := by
  -- By induction on the count, the first register is read and the others follow.
  induction count generalizing i with
  | zero => rfl
  | succ count ih =>
    have number : BitVec.ofNat 8 i = (BitVec.ofNat 5 i).setWidth 8 := by
      apply BitVec.eq_of_toNat_eq
      rw [BitVec.toNat_setWidth, BitVec.toNat_ofNat, BitVec.toNat_ofNat]
      omega
    rw [dumpGprsFrom, number, GPRFile.read_setWidth, ih (by omega)]
    rfl

/-- What the application leaves at the end of a program on a hart. -/
def Exit.of {w : Nat} (ending : Ending SimStatus) (hart : Rv64i.Hart w) : Exit :=
  let gprs := (List.range 32).map fun i => gprLine i (hart.regs.value (BitVec.ofNat 5 i))
  let lines := ("icount = " ++ toString (hart.retired % 2 ^ 64)) :: "GPRs:" :: gprs
  match ending with
  | .exit => ⟨lines ++ ["Success"], 0⟩
  | .trap trap =>
    ⟨lines ++ ["Error: " ++ toString (SimStatus.ofTrap trap).toUnderlying.toNat], -1⟩

/-- The report of a simulation that has ended as a program on a hart. -/
theorem report_eq {w : Nat} {first : Flat w} {ending : Ending SimStatus} {hart : Rv64i.Hart w}
    (same : sim.plain.flat w = first.withHart hart)
    (fails : ∀ trap, ending = .trap trap → SimStatus.ofTrap trap ≠ .ok) :
    report (.ofEnding ending) sim = .ok (Exit.of ending hart) := by
  have core : sim.toCore = (first.withHart hart).toCore := congrArg (·.toCore) same
  have gprs : sim.hart.gprFile.regs = hart.regs := congrArg Core.regs core
  have retired : sim.icount = hart.retired := congrArg Core.icount core
  have lines := dumpGprsFrom_eq sim.hart.gprFile (show 0 + 32 ≤ 32 by decide)
  rw [gprs, ← List.range_eq_range'] at lines
  unfold report dumpGprFile
  rw [show gprNumber = 32 from rfl, lines, retired]
  cases ending with
  | exit => rfl
  | trap trap => exact if_neg (fails trap rfl)

/-- A program that was loaded is simulated. -/
theorem runElf_of_load {simulator : Simulator}
    (loaded : load n simulator (some file) = .ok (some (sim, startPc))) :
    runElf n simulator (some file) = simulate n sim startPc := by
  rw [runElf, loaded]

/-- There is no result before the program was loaded. -/
theorem runElf_of_unfinished {simulator : Simulator}
    (unfinished : load n simulator (some file) = .ok none) :
    runElf n simulator (some file) = .ok none := by
  rw [runElf, unfinished]

/-- The program that is run is the one that the argument names. -/
theorem main_of_named {files : String → Option ElfFile} {name elfName : String}
    (named : files elfName = some file) :
    main n files [name, elfName] = runElf n {} (some file) := by
  rw [← named]
  rfl

/-- What an end of simulation tells about the program on the hart. -/
theorem ended_of_simulate {w : Nat} {flat : Flat w} {status : SimStatus} {after : Simulator}
    (refines : sim.RefinesHart w startPc flat) (denies : flat.Denies)
    (ended : sim.simulate startPc n = .ok (some status, after)) :
    ∃ m ending hart, run (Rv64i.Hart.step flat.denied) m flat.rv64i = .stop (ending, hart) ∧
      report status after = .ok (Exit.of ending hart) := by
  have returned : sim.Returns startPc (.ok (status, after)) := ⟨n, by rw [ended]; rfl⟩
  obtain ⟨m, ending, hart, stopped, same⟩ := (refines.returns _).mp ⟨_, returned, rfl⟩
  obtain ⟨statusEq, flatEq⟩ := Prod.mk.inj (Except.ok.inj same)
  refine ⟨m, ending, hart, stopped, ?_⟩
  rw [show status = .ofEnding ending from statusEq]
  refine report_eq flatEq fun trap trapped => ?_
  -- The last step of the run is the one that traps.
  subst trapped
  obtain ⟨_, _, last, _, stop⟩ := last_of_stop stopped
  exact (flat.ofTrap_stops_step last denies stop).1

/-- The end of a program on the hart is one of simulation. -/
theorem returns_of_stopped {w : Nat} {flat : Flat w} {m : Nat} {ending : Ending SimStatus}
    {hart : Rv64i.Hart w} (refines : sim.RefinesHart w startPc flat)
    (stopped : run (Rv64i.Hart.step flat.denied) m flat.rv64i = .stop (ending, hart)) :
    ∃ status after n, sim.simulate startPc n = .ok (some status, after) := by
  obtain ⟨result, ⟨n, ended⟩, same⟩ := (refines.returns _).mpr ⟨m, ending, hart, stopped, rfl⟩
  cases result with
  | error why => cases same
  | ok result =>
    obtain ⟨status, after⟩ := result
    refine ⟨status, after, n, ?_⟩
    cases simulated : sim.simulate startPc n with
    | error why =>
      rw [simulated] at ended
      cases ended
    | ok last =>
      obtain ⟨answer, later⟩ := last
      rw [simulated] at ended
      cases answer <;> cases ended
      rfl

/-- The application does with a program what a hart of the instruction set does. -/
structure RunsProgram (file : ElfFile) (app : Nat → Except Abort (Option Exit)) : Prop where
  exits : ∀ exit, (∃ iterations, app iterations = .ok (some exit)) ↔
    ∃ m ending hart, run (Rv64i.Hart.step file.flat.denied) m file.flat.rv64i =
      .stop (ending, hart) ∧ exit = Exit.of ending hart
  safe : ∀ iterations why, app iterations ≠ .error why

/-- The application runs every program that can be loaded, is calm and stays tame. -/
theorem runsProgram {files : String → Option ElfFile} {name elfName : String}
    (named : files elfName = some file) (complete : file.Complete) (wellFormed : WellFormed file)
    (apart : PagesApart file) (fit : TablesFit ((imageVpns file).map pageKey).toFinset)
    (calm : file.flat.Calm) (tame : file.flat.StaysTame file.flat.rv64i) :
    RunsProgram file fun iterations => main iterations files [name, elfName] := by
  obtain ⟨enough, sim, loaded⟩ :=
    load_of_mappable complete wellFormed (wellFormed.mappable_iff.mpr ⟨apart, fit⟩)
  obtain ⟨_, fresh, space, same⟩ := program_of_load complete wellFormed loaded
  have refines : sim.RefinesHart 39 file.eEntry file.flat := by
    have hart := (Simulator.refinesFlat_of_calm fresh space (same ▸ calm)).refinesHart (same ▸ tame)
    rwa [same] at hart
  have denies : file.flat.Denies := same ▸ Plain.denies_flat 39 _
  -- Whatever the number of iterations, the program is loaded like this or not at all.
  have loads (n : Nat) : load n {} (some file) = .ok none ∨
      load n {} (some file) = .ok (some (sim, file.eEntry)) := by
    by_cases unfinished : load n {} (some file) = .ok none
    · exact .inl unfinished
    · rcases Nat.le_total n enough with less | more
      · exact .inr ((load_mono less unfinished).symm.trans loaded)
      · exact .inr ((load_mono more (by rw [loaded]; exact nofun)).trans loaded)
  refine ⟨fun exit => ⟨?_, ?_⟩, ?_⟩
  · rintro ⟨n, ran⟩
    rcases loads n with unfinished | loadedNow
    · cases ((main_of_named named).trans (runElf_of_unfinished unfinished)).symm.trans ran
    · rw [main_of_named named, runElf_of_load loadedNow, simulate] at ran
      split at ran
      · cases ran
      · cases ran
      · rename_i ended
        obtain ⟨m, ending, hart, stopped, reported⟩ := ended_of_simulate refines denies ended
        rw [reported] at ran
        cases ran
        exact ⟨m, ending, hart, stopped, rfl⟩
  · rintro ⟨m, ending, hart, stopped, rfl⟩
    obtain ⟨status, after, k, ended⟩ := returns_of_stopped refines stopped
    -- Enough iterations are enough for the loader and for the simulation.
    refine ⟨max enough k, ?_⟩
    have loadedNow : load (max enough k) {} (some file) = .ok (some (sim, file.eEntry)) :=
      (load_mono (Nat.le_max_left _ _) (by rw [loaded]; exact nofun)).trans loaded
    have endedNow : sim.simulate file.eEntry (max enough k) = .ok (some status, after) :=
      (Simulator.simulateLoop_mono (Nat.le_max_right enough k) fun later unfinished => by
        cases ended.symm.trans unfinished).trans ended
    obtain ⟨_, _, _, otherStopped, reported⟩ := ended_of_simulate refines denies endedNow
    obtain ⟨rfl, rfl⟩ := Prod.mk.inj (stop_unique otherStopped stopped)
    rw [main_of_named named, runElf_of_load loadedNow, simulate, endedNow]
    simp only [reported]
  · intro n why failed
    rcases loads n with unfinished | loadedNow
    · cases ((main_of_named named).trans (runElf_of_unfinished unfinished)).symm.trans failed
    · rw [main_of_named named, runElf_of_load loadedNow, simulate] at failed
      split at failed
      · -- The hart comes to no end in which the simulation aborts.
        rename_i aborted
        have returned : sim.Returns file.eEntry (.error why) := ⟨n, by rw [aborted]; cases failed; rfl⟩
        obtain ⟨_, _, _, _, same⟩ := (refines.returns _).mp ⟨_, returned, rfl⟩
        cases same
      · cases failed
      · rename_i ended
        obtain ⟨_, _, _, _, reported⟩ := ended_of_simulate refines denies ended
        rw [reported] at failed
        cases failed

/-- The addresses of the words that the small program fetches ahead. -/
def smallFileWords : List VirtAddr := [0x10ff4, 0x10ff8, 0x10ffc, 0x11000, 0x11004, 0x11008]

/-- A program that loads, stores and leaves from its second block runs as on a hart. -/
theorem runsProgram_small :
    RunsProgram smallFile fun iterations =>
      main iterations (fun _ => some smallFile) ["sim", "elf"] :=
  @runsProgram smallFile (fun _ => some smallFile) "sim" "elf" rfl smallFile_complete
    smallFile_wellFormed smallFile_apart smallFile_fit
    (Flat.calm_of_checked smallFileWords 6 (by decide +kernel) (by decide +kernel))
    (Flat.staysTame_of_checked 6 (by decide +kernel) (by decide +kernel))

end SimApp

end RiscvSim

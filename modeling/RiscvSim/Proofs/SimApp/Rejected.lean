import RiscvSim.Proofs.SimApp.Main

/-! Every well-formed file is loaded or refused: the loader comes to an end with it. -/

namespace RiscvSim

namespace ElfLoader

variable {history : List MapCall} {loader : ElfLoader} {memory : PhysMemory}

namespace Loading

/-- Mapping a page always comes to a status. -/
theorem mapPage_ends (loading : Loading history loader memory) (vpn : VPN) :
    ∃ status later after, loader.mapPage memory vpn = .ok (status, later, after) := by
  obtain ⟨added, step, _, elsewhere⟩ := loading.addPage
  obtain ⟨status, made, called, _⟩ := loading.map_added elsewhere vpn
  rw [loading.mapPage_eq step, called]
  exact ⟨_, _, _, rfl⟩

/-- With enough turns the loop over pages comes to a status. -/
theorem mapPages_ends (loading : Loading history loader memory) {segEnd : VirtAddr}
    (low : segEnd.toNat ≤ 0xfffffffffffff000) {count iterations : Nat} (currPageVa : VirtAddr)
    (aligned : currPageVa.toNat % 4096 = 0)
    (left : (segEnd.toNat + 4095) / 4096 - currPageVa.toNat / 4096 = count)
    (enough : count < iterations) :
    ∃ status later after, mapPages mapNext segEnd iterations currPageVa (loader, memory) =
      .ok (some status, later, after) := by
  -- By induction on the pages that are left, where a page that is not mapped ends the loop.
  induction count generalizing currPageVa history loader memory iterations with
  | zero =>
    obtain ⟨turns, rfl⟩ := Nat.exists_eq_succ_of_ne_zero (Nat.ne_of_gt enough)
    have done : ¬currPageVa < segEnd := by
      rw [BitVec.lt_def]
      omega
    rw [mapPages, if_neg done]
    exact ⟨_, _, _, rfl⟩
  | succ count ih =>
    obtain ⟨turns, rfl⟩ := Nat.exists_eq_succ_of_ne_zero (Nat.ne_of_gt (Nat.zero_lt_of_lt enough))
    have more : currPageVa < segEnd := by
      rw [BitVec.lt_def]
      omega
    rw [mapPages, if_pos more, ofNat_pageSize]
    rw [BitVec.lt_def] at more
    have moved := toNat_add_pageSize currPageVa (by omega)
    rw [ofNat_pageSize] at moved
    obtain ⟨status, next, after, called⟩ := loading.mapPage_ends (currPageVa / 4096#64)
    simp only [mapNext, called]
    split
    · exact ⟨_, _, _, rfl⟩
    · rename_i ok
      rw [Decidable.not_not.mp ok] at called
      exact ih ((loading.mapPage_ok called).loading loading) _ (by omega) (by omega) (by omega)

/-- With enough turns loading segments comes to a status. -/
theorem loadSegments_ends (loading : Loading history loader memory) {elfBuf : List (BitVec 8)}
    {phdrs : List GElfPhdr} {iterations : Nat}
    (loadable : ∀ seg ∈ phdrs, seg.pType = ptLoad → Loadable elfBuf seg)
    (enough : 0x10000000000000000 ≤ iterations) :
    ∃ status later after, loadSegments iterations elfBuf phdrs.length phdrs loader memory =
      .ok (some status, later, after) := by
  -- By induction on the headers, where a segment that is not loaded ends the loop.
  induction phdrs generalizing history loader memory with
  | nil => exact ⟨_, _, _, rfl⟩
  | cons seg rest ih =>
    have loadableRest : ∀ seg ∈ rest, seg.pType = ptLoad → Loadable elfBuf seg :=
      fun other member => loadable other (List.mem_cons_of_mem seg member)
    rw [List.length_cons, loadSegments]
    split
    · rename_i isLoad
      have fits := loadable seg List.mem_cons_self isLoad
      obtain ⟨low, aligned, _⟩ := fits.loop
      obtain ⟨status, next, mapped, ran⟩ : ∃ status next mapped,
          mapSegment seg iterations loader memory = .ok (some status, next, mapped) :=
        loading.mapPages_ends low _ aligned rfl (by omega)
      cases status with
      | ok =>
        obtain ⟨calls, outcome, copies, done, _, spec⟩ :=
          (mapSegment_ok fits ran).copySegment loading fits iterations
        have length := seg.pFilesz.isLt
        obtain ⟨copied, rfl⟩ := Option.isSome_iff_exists.mp (done (by omega))
        have loaded : loadSegment iterations elfBuf seg loader memory =
            .ok (some .ok, next, copied) := by
          rw [loadSegment]
          simp only [ran, copies]
        rw [loaded]
        exact ih (spec copied rfl).1 loadableRest
      | _ =>
        simp only [loadSegment, ran]
        exact ⟨_, _, _, rfl⟩
    · exact ih loading loadableRest

end Loading

/-- The pages of the stack can be mapped. -/
theorem mappable_stackVpns : Mappable stackVpns :=
  (smallFile_wellFormed.mappable_iff.mpr ⟨smallFile_apart, smallFile_fit⟩).sublist
    (List.sublist_append_left _ _)

end ElfLoader

open ElfLoader

namespace SimApp

variable {file : ElfFile} {n : Nat} {simulator : Simulator}

/-- A file that the loader refuses is not simulated. -/
theorem load_refused {created loader later : ElfLoader} {start memory after : PhysMemory}
    {startSp : RegValue} {gprFile : GPRFile} {res : LoadElfRes}
    (new : ElfLoader.new simulator.physMemory = .ok (created, start))
    (stackMapped : created.mapStack start = .ok (.ok, startSp, loader, memory))
    (written : simulator.hart.gprFile.write GPRFile.sp startSp = .ok gprFile)
    (elfLoaded : loader.loadElf n memory file = .ok (some res, later, after))
    (refused : res.status ≠ .ok) : load n simulator (some file) = .error .assertion := by
  simp only [load, new, stackMapped, written, elfLoaded, ne_eq, not_true, if_false]
  rw [if_pos refused]

/-- With enough iterations a well-formed file is loaded or refused. -/
theorem load_ends (complete : file.Complete) (wellFormed : WellFormed file)
    (enough : 0x10000000000000000 ≤ n) :
    (∃ sim, load n {} (some file) = .ok (some (sim, file.eEntry))) ∨
      load n {} (some file) = .error .assertion := by
  obtain ⟨created, start, new⟩ := exists_new
  obtain ⟨newLoading, base, size⟩ := Loading.new new
  obtain ⟨loader, memory, maps⟩ := newLoading.mapsPages stackVpns
    (by rw [List.map_nil, List.append_nil]; exact mappable_stackVpns)
  have stackMapped := mapStack_of_maps base size maps
  have startSp := mapStack_startSp base size stackMapped
  rw [startSp] at stackMapped
  obtain ⟨calls, loading, _⟩ := maps.adds newLoading
  obtain ⟨status, later, after, ran⟩ := loading.loadSegments_ends
    (fun _ member isLoad => wellFormed.loadable (mem_loadSegs.mpr ⟨member, isLoad⟩)) enough
  by_cases ok : status = .ok
  · -- All segments were loaded.
    rw [ok] at ran
    have elfLoaded := (loadElf_ok_iff complete).mpr ⟨ran, rfl⟩
    exact .inl ⟨_, load_ok_iff.mpr ⟨created, start, _, loader, memory, _, later, after, new,
      stackMapped, write_startSp, elfLoaded, rfl⟩⟩
  · -- The status of the last page is that of the loader.
    have elfLoaded : loader.loadElf n memory file = .ok (some ⟨status, 0⟩, later, after) := by
      simp only [loadElf, complete.read, elfBuf_length, ← complete.headers, ran]
    exact .inr (load_refused new stackMapped write_startSp elfLoaded ok)

/-- The pages of a program that was loaded can be mapped. -/
theorem mappable_of_load {sim : Simulator} {startPc : RegValue} (complete : file.Complete)
    (wellFormed : WellFormed file)
    (loaded : load n {} (some file) = .ok (some (sim, startPc))) : Mappable (imageVpns file) := by
  obtain ⟨created, start, startSp, loader, memory, _, later, after, new, stackMapped, _, elfLoaded,
    _⟩ := load_ok_iff.mp loaded
  obtain ⟨history, loading, numbers, _⟩ := loading_of_loaded complete new stackMapped elfLoaded
    fun _ member isLoad => wellFormed.loadable (mem_loadSegs.mpr ⟨member, isLoad⟩)
  -- Each page was mapped with a key of its own, and the tables for all of them fit.
  have mapped : Mappable (history.map MapCall.vpn) :=
    ⟨by rw [List.map_map]; exact loading.keys, loading.tablesFit⟩
  rw [numbers] at mapped
  exact mapped.perm (List.reverse_perm _).symm

/-- The application comes to an end with loading a file, and simulates the program from its entry
or stops at an assertion. -/
structure Loads (file : ElfFile) (app : Nat → Except Abort (Option Exit)) : Prop where
  runs : PagesApart file → TablesFit ((imageVpns file).map pageKey).toFinset →
    ∃ sim : Simulator, sim.Fresh ∧ (sim.start file.eEntry).plain.Space 39 ∧
      (sim.start file.eEntry).plain.flat 39 = file.flat ∧
      ∀ iterations, 0x10000000000000000 ≤ iterations →
        app iterations = simulate iterations sim file.eEntry
  refuses : ¬(PagesApart file ∧ TablesFit ((imageVpns file).map pageKey).toFinset) →
    ∀ iterations, 0x10000000000000000 ≤ iterations → app iterations = .error .assertion

/-- The application decides about every well-formed file by its pages. -/
theorem loads_wellFormed {files : String → Option ElfFile} {name elfName : String}
    (named : files elfName = some file) (complete : file.Complete) (wellFormed : WellFormed file) :
    Loads file fun iterations => main iterations files [name, elfName] where
  runs apart fit := by
    obtain ⟨enough, sim, loaded⟩ :=
      load_of_mappable complete wellFormed (wellFormed.mappable_iff.mpr ⟨apart, fit⟩)
    obtain ⟨_, fresh, space, same⟩ := program_of_load complete wellFormed loaded
    refine ⟨sim, fresh, space, same, fun n many => ?_⟩
    -- The loader has ended by then, as it has with even more iterations.
    have ended : load n {} (some file) ≠ .ok none := by
      rcases load_ends complete wellFormed many with ⟨other, loadedNow⟩ | refused
      · rw [loadedNow]
        exact nofun
      · rw [refused]
        exact nofun
    have more := load_mono (Nat.le_max_right enough n) ended
    have last := load_mono (Nat.le_max_left enough n) (by rw [loaded]; exact nofun)
    rw [main_of_named named, runElf_of_load (more.symm.trans (last.trans loaded))]
  refuses unfit n many := by
    rcases load_ends complete wellFormed many with ⟨sim, loaded⟩ | refused
    · -- A file that was loaded had all its pages mapped.
      exact absurd (wellFormed.mappable_iff.mp (mappable_of_load complete wellFormed loaded)) unfit
    · rw [main_of_named named, runElf, refused]

/-- The application stops at a file whose segments share a page. -/
theorem loads_wellFormed_shared :
    Loads sharedFile fun iterations =>
      main iterations (fun _ => some sharedFile) ["sim", "elf"] :=
  @loads_wellFormed sharedFile (fun _ => some sharedFile) "sim" "elf" rfl sharedFile_complete
    sharedFile_wellFormed

end SimApp

end RiscvSim

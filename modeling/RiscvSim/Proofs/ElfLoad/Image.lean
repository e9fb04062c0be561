import RiscvSim.Proofs.ElfLoad.Segments

/-! The memory image after a file was loaded, read through translation. -/

namespace RiscvSim

/-- The one read returns the whole file, and the library finds all of its program headers. -/
structure ElfFile.Complete (file : ElfFile) : Prop where
  read : file.readNum = some file.bytes.length
  headers : file.phdrs.length = file.ePhnum.toNat

namespace ElfLoader

/-- Every access of a user to an address is translated to a byte of RAM. -/
def Reads (memory : PhysMemory) (va : VirtAddr) (byte : BitVec 8) : Prop :=
  ∃ pa, (∀ asid mstatus64 accessType,
    translate memory mstatus64 ⟨.sv39, asid, 0⟩ .user accessType va = .ok ⟨.ok, pa⟩) ∧
      memory.bytes pa = some byte

/-- Every access of a user to a virtual page is translated to a physical page. -/
def Backs (memory : PhysMemory) (vpn : VPN) (ppn : PPN) : Prop :=
  ∀ (va : VirtAddr) asid mstatus64 accessType, va.toNat / 4096 = vpn.toNat →
    translate memory mstatus64 ⟨.sv39, asid, 0⟩ .user accessType va =
      .ok ⟨.ok, ppn * 4096#64 + va % 4096#64⟩

/-- The numbers of the stack's pages. -/
def stackVpns : List VPN := vpnsFrom (defaultStackBase - defaultStackSize) 0x1000

/-- The numbers of the pages that are mapped for the stack and for a file. -/
def imageVpns (file : ElfFile) : List VPN := stackVpns ++ loadedVpns file.phdrs

/-- The image of a file is in memory. -/
structure ImageLoaded (file : ElfFile) (loader : ElfLoader) (memory : PhysMemory) : Prop where
  segments : ∀ seg ∈ file.phdrs, seg.pType = ptLoad → ∀ k < seg.pMemsz.toNat,
    Reads memory (seg.pVaddr + BitVec.ofNat 64 k) (segmentByte file.bytes seg k)
  stack : ∀ va : VirtAddr, va / 4096#64 ∈ stackVpns → Reads memory va 0
  /-- The loader has mapped the pages of the stack and of the file, and no others. -/
  passed : ∀ vpn, (loader.mapping vpn).isSome ↔ vpn ∈ imageVpns file
  /-- Different pages have different physical pages behind them, which lie above the tables. -/
  distinct : ∀ vpn other, (loader.mapping vpn).isSome → (loader.mapping other).isSome →
    vpn ≠ other → ∃ ppn otherPpn, Backs memory vpn ppn ∧ Backs memory other otherPpn ∧
      ppn ≠ otherPpn ∧ defaultTableRegionSize ≤ ppn ∧ defaultTableRegionSize ≤ otherPpn

variable {history : List MapCall} {loader later created : ElfLoader}
  {memory after start : PhysMemory} {vpn : VPN} {ppn : PPN} {va : VirtAddr} {byte : BitVec 8}

/-- A user may do everything with a page that was loaded. -/
theorem admits_loadFlags (mstatus64 : MSTATUS64) (accessType : AccessType) :
    admits mstatus64 .user accessType loadFlags = true := by
  -- The page is readable, writable and executable, whatever the status says.
  have flags : loadFlags.r = true ∧ loadFlags.w = true ∧ loadFlags.x = true ∧
      loadFlags.u = true := by decide
  obtain ⟨r, w, x, u⟩ := flags
  cases accessType <;> simp [admits, checkLeafFlags, r, w, x, u]

namespace Loading

/-- The known pages are those of the calls. -/
theorem passed (loading : Loading history loader memory) (vpn : VPN) :
    (loader.mapping vpn).isSome ↔ vpn ∈ history.map MapCall.vpn := by
  rw [List.mem_map]
  constructor
  · -- A page that is known was listed by a call.
    intro known
    obtain ⟨ppn, found⟩ := Option.isSome_iff_exists.mp known
    exact ⟨_, (loading.listed vpn ppn).mp found, rfl⟩
  · rintro ⟨call, member, rfl⟩
    have same := loading.calls call member
    rw [same] at member
    exact Option.isSome_of_eq_some ((loading.listed _ _).mpr member)

/-- A known page is backed by its physical page. -/
theorem backs (loading : Loading history loader memory) (known : loader.mapping vpn = some ppn) :
    Backs memory vpn ppn := by
  intro va asid mstatus64 accessType inPage
  have member := (loading.listed vpn ppn).mp known
  have key : (mapCall vpn ppn).key 3 = vpnKey 3 va := by
    rw [vpnKey, inPage]
    rfl
  have place : calcPhysAddr (leafPTE (mapCall vpn ppn).mapping) va 0 =
      ppn * 4096#64 + va % 4096#64 :=
    calcPhysAddr_leaf (mapCall vpn ppn).mapping (loading.bounds known).2.2 va
  -- The builder's tables answer for the loader's history.
  exact (loading.built.translate_ok_iff (show modeToLevels .sv39 = .ok 3 from rfl) (by decide) asid
    mstatus64 .user accessType va _).mpr
      ⟨_, member, rfl, key, admits_loadFlags mstatus64 accessType, place.symm⟩

/-- A byte that is seen is read. -/
theorem reads (loading : Loading history loader memory) (seen : loader.view memory va = some byte) :
    Reads memory va byte := by
  -- A byte is seen behind a known page, which is backed.
  rw [view] at seen
  cases known : loader.mapping (va / 4096#64) with
  | none =>
    rw [known] at seen
    cases seen
  | some ppn =>
    rw [known, Option.bind_some] at seen
    refine ⟨_, fun asid mstatus64 accessType => ?_, seen⟩
    exact loading.backs known va asid mstatus64 accessType (toNat_div_page va).symm

/-- A new loader has mapped nothing. -/
theorem new (result : ElfLoader.new PhysMemory.new = .ok (created, start)) :
    Loading [] created start ∧ created.stackBase = defaultStackBase ∧
      created.stackSize = defaultStackSize := by
  -- The tables are added before anything else, and nothing is mapped.
  rw [ElfLoader.new] at result
  split at result
  · cases result
  · rename_i mapper memory builder
    cases result
    have made := builder
    rw [SimpleMemoryMapper.new, if_pos (by decide)] at made
    split at made
    · cases made
    · rename_i added pages
      cases made
      have bytes := bytes_addTablePages (by decide) pages
      refine ⟨?_, rfl, rfl⟩
      exact
        { mode := rfl
          built := .new builder
          calls := fun call never => absurd never List.not_mem_nil
          keys := List.nodup_nil
          next := rfl
          numbered := fun call never => absurd never List.not_mem_nil
          listed := fun vpn ppn => by simp
          distinct := fun vpn other ppn known => by cases known
          pages := fun addr => by
            -- Only the sixteen table pages are there.
            have size : (defaultTableRegionSize - 0).toNat = 16 := by decide
            have next : defaultTableRegionSize.toNat = 16 := by decide
            rw [bytes, size, next]
            by_cases table : addr.toNat / 4096 < 16
            · rw [if_pos ⟨Nat.zero_le _, by simpa using table⟩]
              simpa using table
            · rw [if_neg fun inside => table (by simpa using inside.2)]
              simp only [PhysMemory.bytes, PhysMemory.new, RAM.new]
              simpa using table }

end Loading

/-- The stack loop maps the pages of the stack. -/
theorem mapStack_ok (base : loader.stackBase = defaultStackBase)
    (size : loader.stackSize = defaultStackSize) {sp : RegValue}
    (result : loader.mapStack memory = .ok (.ok, sp, later, after)) :
    MapsPages stackVpns loader memory later after := by
  have count : (defaultStackBase - (defaultStackBase - defaultStackSize)).toNat = 0x1000 := by
    decide
  rw [mapStack, base, size] at result
  -- The loop counts the pages of the stack, of which there are 4096.
  simp only [count] at result
  split at result
  · cases result
  · rename_i status next nextMemory ran
    split at result
    · rename_i failed
      cases result
      exact absurd rfl failed
    · rename_i ok
      cases result
      rw [Decidable.not_not.mp ok] at ran
      exact (mapStackFrom_ok_iff 0x1000).mp ran

/-- The stack is mapped when its pages can be. -/
theorem mapStack_of_maps (base : loader.stackBase = defaultStackBase)
    (size : loader.stackSize = defaultStackSize)
    (maps : MapsPages stackVpns loader memory later after) :
    loader.mapStack memory =
      .ok (.ok, later.stackBase * BitVec.ofNat 64 pageSize, later, after) := by
  have count : (defaultStackBase - (defaultStackBase - defaultStackSize)).toNat = 0x1000 := by
    decide
  have ran := (mapStackFrom_ok_iff 0x1000).mpr maps
  rw [mapStack, base, size]
  simp only [count, ran, ne_eq, not_true, if_false]

/-- A read of the whole file fills the buffer with it. -/
theorem elfBuf_length (file : ElfFile) : file.elfBuf file.bytes.length = file.bytes := by
  rw [ElfFile.elfBuf, List.take_length, Nat.sub_self, List.replicate_zero, List.append_nil]

/-- A file is loaded when the loop over its headers ends well. -/
theorem loadElf_ok_iff {file : ElfFile} {iterations : Nat} {pc : RegValue}
    (complete : file.Complete) :
    loader.loadElf iterations memory file = .ok (some ⟨.ok, pc⟩, later, after) ↔
      loadSegments iterations file.bytes file.phdrs.length file.phdrs loader memory =
        .ok (some .ok, later, after) ∧ pc = file.eEntry := by
  simp only [loadElf, complete.read, elfBuf_length, ← complete.headers]
  constructor
  · intro loaded
    split at loaded
    · cases loaded
    · cases loaded
    · rename_i ended
      cases loaded
      exact ⟨ended, rfl⟩
    · rename_i failed _
      cases loaded
      exact absurd rfl failed
  · rintro ⟨ended, rfl⟩
    rw [ended]

/-- Loading the stack and then a file maps their pages and fills those of the file. -/
theorem placed_of_loaded {file : ElfFile} {iterations : Nat} {sp pc : RegValue}
    (complete : file.Complete) (new : ElfLoader.new PhysMemory.new = .ok (created, start))
    (stackMapped : created.mapStack start = .ok (.ok, sp, loader, memory))
    (loaded : loader.loadElf iterations memory file = .ok (some ⟨.ok, pc⟩, later, after))
    (loadable : ∀ seg ∈ file.phdrs, seg.pType = ptLoad → Loadable file.bytes seg) :
    ∃ history, Loading history later after ∧
      history.map MapCall.vpn = (imageVpns file).reverse ∧
      (∀ va : VirtAddr, va / 4096#64 ∈ stackVpns → later.view after va = some 0) ∧
      ∀ seg ∈ file.phdrs, seg.pType = ptLoad →
        SegmentPlaced file.bytes seg (later.view after) := by
  obtain ⟨newLoading, base, size⟩ := Loading.new new
  obtain ⟨stackCalls, stackLoading, stackNumbers, stackAdds⟩ :=
    (mapStack_ok base size stackMapped).adds newLoading
  -- The file is loaded when the loop over its headers ends well.
  have ran := ((loadElf_ok_iff complete).mp loaded).1
  obtain ⟨calls, laterLoading, numbers, keeps, segments⟩ := stackLoading.loadSegments_ok loadable ran
  refine ⟨_, laterLoading, ?_, ?_, segments⟩
  · -- The newest calls are those of the last segment.
    rw [List.map_append, List.append_nil, numbers, stackNumbers, imageVpns, List.reverse_append]
  · -- Loading the segments keeps the bytes of the stack.
    intro va inStack
    exact keeps.found (stackAdds.zero va inStack)

/-- Loading the stack and then a file maps their pages and copies the bytes of the file. -/
theorem loading_of_loaded {file : ElfFile} {iterations : Nat} {sp pc : RegValue}
    (complete : file.Complete) (new : ElfLoader.new PhysMemory.new = .ok (created, start))
    (stackMapped : created.mapStack start = .ok (.ok, sp, loader, memory))
    (loaded : loader.loadElf iterations memory file = .ok (some ⟨.ok, pc⟩, later, after))
    (loadable : ∀ seg ∈ file.phdrs, seg.pType = ptLoad → Loadable file.bytes seg) :
    ∃ history, Loading history later after ∧
      history.map MapCall.vpn = (imageVpns file).reverse ∧
      (∀ va : VirtAddr, va / 4096#64 ∈ stackVpns → later.view after va = some 0) ∧
      ∀ seg ∈ file.phdrs, seg.pType = ptLoad →
        SegmentLoaded file.bytes seg (later.view after) := by
  obtain ⟨history, loading, numbers, stack, placed⟩ :=
    placed_of_loaded complete new stackMapped loaded loadable
  exact ⟨history, loading, numbers, stack, fun seg member isLoad =>
    (placed seg member isLoad).loaded (loadable seg member isLoad)⟩

/-- When the stack and a file were loaded into a new memory, the image of the file is there. -/
theorem imageLoaded {file : ElfFile} {iterations : Nat} {sp pc : RegValue}
    (complete : file.Complete) (new : ElfLoader.new PhysMemory.new = .ok (created, start))
    (stackMapped : created.mapStack start = .ok (.ok, sp, loader, memory))
    (loaded : loader.loadElf iterations memory file = .ok (some ⟨.ok, pc⟩, later, after))
    (loadable : ∀ seg ∈ file.phdrs, seg.pType = ptLoad → Loadable file.bytes seg) :
    ImageLoaded file later after := by
  obtain ⟨history, loading, numbers, stack, segments⟩ :=
    loading_of_loaded complete new stackMapped loaded loadable
  refine ⟨?_, ?_, ?_, ?_⟩
  · intro seg member isLoad k inside
    exact loading.reads ((segments seg member isLoad).bytes k inside)
  · intro va inStack
    exact loading.reads (stack va inStack)
  · intro vpn
    rw [loading.passed, numbers, List.mem_reverse]
  · -- Each physical page is behind one virtual page.
    intro vpn other known otherKnown different
    obtain ⟨ppn, found⟩ := Option.isSome_iff_exists.mp known
    obtain ⟨otherPpn, otherFound⟩ := Option.isSome_iff_exists.mp otherKnown
    have apart : ppn ≠ otherPpn := by
      rintro rfl
      exact different (loading.distinct vpn other ppn found otherFound)
    exact ⟨ppn, otherPpn, loading.backs found, loading.backs otherFound, apart,
      (loading.bounds found).1, (loading.bounds otherFound).1⟩

end ElfLoader

end RiscvSim

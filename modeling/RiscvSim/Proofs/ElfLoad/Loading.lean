import RiscvSim.ElfLoad.ElfLoader
import RiscvSim.Proofs.Memory.Reach
import Mathlib.Data.List.Nodup
import Mathlib.Data.List.Perm.Subperm

/-! What the loader's mapping says about its memory, and how mapping a page and writing keep it. -/

namespace RiscvSim

open PhysMemory (Fits)

namespace ElfLoader

/-- The bytes of the pages that were mapped, at their virtual addresses. -/
def view (loader : ElfLoader) (memory : PhysMemory) : ByteStore 64 := fun va =>
  (loader.mapping (va / 4096#64)).bind fun ppn => memory.bytes (ppn * 4096#64 + va % 4096#64)

/-- The call of the builder that maps a page. -/
def mapCall (vpn : VPN) (ppn : PPN) : MapCall := ⟨loadFlags, vpn, ppn, .ok⟩

/-- The pages of the loader and the calls of its builder are those that its mapping lists. -/
structure Loading (history : List MapCall) (loader : ElfLoader) (memory : PhysMemory) : Prop where
  mode : loader.mmuMode = .sv39
  built : Built .sv39 0 defaultTableRegionSize history loader.mapper memory
  calls : ∀ call ∈ history, call = mapCall call.vpn call.ppn
  keys : (history.map (MapCall.key 3)).Nodup
  next : loader.nextMapPpn.toNat = 16 + history.length
  numbered : ∀ call ∈ history, 16 ≤ call.ppn.toNat ∧ call.ppn.toNat < loader.nextMapPpn.toNat
  listed : ∀ vpn ppn, loader.mapping vpn = some ppn ↔ mapCall vpn ppn ∈ history
  distinct : ∀ vpn other ppn, loader.mapping vpn = some ppn → loader.mapping other = some ppn →
    vpn = other
  pages : ∀ addr, (memory.bytes addr).isSome ↔ addr.toNat / 4096 < loader.nextMapPpn.toNat

variable {history : List MapCall} {loader later : ElfLoader} {memory after : PhysMemory}
  {vpn : VPN} {ppn : PPN}

/-- What a page that was mapped leaves behind. -/
structure PageMapped (history : List MapCall) (loader : ElfLoader) (memory : PhysMemory)
    (vpn : VPN) (later : ElfLoader) (after : PhysMemory) : Prop where
  mode : later.mmuMode = loader.mmuMode
  next : later.nextMapPpn.toNat = loader.nextMapPpn.toNat + 1
  /-- The page was not known, and its key was not mapped. -/
  unknown : loader.mapping vpn = none
  fresh : ∀ call ∈ history, call.key 3 ≠ vpn.toNat % 512 ^ 3
  mapping : later.mapping = Function.update loader.mapping vpn (some loader.nextMapPpn)
  built : Built .sv39 0 defaultTableRegionSize (mapCall vpn loader.nextMapPpn :: history)
    later.mapper after
  /-- The page holds zeros, and only tables change elsewhere. -/
  zero : ∀ addr, addr.toNat / 4096 = loader.nextMapPpn.toNat → after.bytes addr = some 0
  kept : ∀ addr, 16 ≤ addr.toNat / 4096 → addr.toNat / 4096 ≠ loader.nextMapPpn.toNat →
    after.bytes addr = memory.bytes addr
  pages : ∀ addr, (after.bytes addr).isSome ↔ addr.toNat / 4096 < loader.nextMapPpn.toNat + 1

/-- The address of a byte in a page. -/
theorem toNat_inPage (small : ppn.toNat < 2 ^ 44) (va : VirtAddr) :
    (ppn * 4096#64 + va % 4096#64).toNat = ppn.toNat * 4096 + va.toNat % 4096 := by
  rw [BitVec.toNat_add, BitVec.toNat_mul, BitVec.toNat_umod, show (4096#64).toNat = 4096 from rfl]
  omega

namespace Loading

/-- There are at most as many calls as keys, so that page numbers do not wrap. -/
theorem next_lt (loading : Loading history loader memory) :
    loader.nextMapPpn.toNat ≤ 16 + 2 ^ 27 := by
  -- The keys are distinct numbers below 2^27.
  have inside : history.map (MapCall.key 3) ⊆ List.range (2 ^ 27) := by
    intro key member
    obtain ⟨call, _, rfl⟩ := List.mem_map.mp member
    rw [List.mem_range]
    exact Nat.mod_lt _ (by decide)
  have count := (List.subperm_of_subset loading.keys inside).length_le
  rw [List.length_map, List.length_range] at count
  rw [loading.next]
  omega

/-- A page that the mapping lists is one of RAM above the tables. -/
theorem bounds (loading : Loading history loader memory) (known : loader.mapping vpn = some ppn) :
    16 ≤ ppn.toNat ∧ ppn.toNat < loader.nextMapPpn.toNat ∧ ppn.toNat < 2 ^ 44 := by
  obtain ⟨lower, upper⟩ := loading.numbered _ ((loading.listed vpn ppn).mp known)
  have limit := loading.next_lt
  dsimp only [mapCall] at lower upper
  exact ⟨lower, upper, by omega⟩

/-- Changes to memory above the tables keep the mapping. -/
theorem of_memory (loading : Loading history loader memory)
    (tables : ∀ addr, addr.toNat / 4096 < 16 → after.bytes addr = memory.bytes addr)
    (pages : ∀ addr, (after.bytes addr).isSome ↔ (memory.bytes addr).isSome) :
    Loading history loader after where
  mode := loading.mode
  built := by
    obtain ⟨_, first, last, _⟩ :=
      loading.built.represents (by decide) (rfl : modeToLevels .sv39 = .ok 3) (by decide)
    -- The region of the tables ends with page 16.
    refine .other after loading.built fun addr inside => tables addr ?_
    rw [SimpleMemoryMapper.InRegion, last] at inside
    exact inside.2
  calls := loading.calls
  keys := loading.keys
  next := loading.next
  numbered := loading.numbered
  listed := loading.listed
  distinct := loading.distinct
  pages addr := (pages addr).trans (loading.pages addr)

/-- The next page is not there yet, and is added with zeros. -/
theorem addPage (loading : Loading history loader memory) : ∃ added,
    memory.addRAMPage (loader.nextMapPpn * 4096#64) = .ok (true, added) ∧
      (∀ addr, addr.toNat / 4096 = loader.nextMapPpn.toNat →
        memory.bytes addr = none ∧ added.bytes addr = some 0) ∧
      ∀ addr, addr.toNat / 4096 ≠ loader.nextMapPpn.toNat →
        added.bytes addr = memory.bytes addr := by
  have limit := loading.next_lt
  have number : (loader.nextMapPpn * 4096#64).toNat = loader.nextMapPpn.toNat * 4096 := by
    rw [BitVec.toNat_mul, show (4096#64).toNat = 4096 from rfl]
    omega
  obtain ⟨added, step, bytes, _⟩ := memory.addRAMPage_eq (loader.nextMapPpn * 4096#64)
    (by rw [pageBase_eq_self_iff, number]; omega)
  -- The pages that are there have smaller numbers.
  have absent : ¬memory.HasPage (loader.nextMapPpn * 4096#64) := by
    rw [← PhysMemory.isSome_bytes, loading.pages, number]
    omega
  have samePage (addr : PhysAddr) : pageBase addr = loader.nextMapPpn * 4096#64 ↔
      addr.toNat / 4096 = loader.nextMapPpn.toNat := by
    rw [← BitVec.toNat_inj, toNat_pageBase, number]
    omega
  rw [decide_eq_false absent] at step
  refine ⟨added, step, ?_, ?_⟩
  · intro addr inside
    have missing : memory.bytes addr = none := by
      rw [← Option.not_isSome_iff_eq_none, loading.pages]
      omega
    refine ⟨missing, ?_⟩
    rw [bytes, ByteStore.extend, if_pos ((samePage addr).mpr inside), missing]
    rfl
  · intro addr outside
    rw [bytes, ByteStore.extend, if_neg (mt (samePage addr).mp outside)]

/-- Mapping a page is a call of the builder over the memory with the next page. -/
theorem mapPage_eq (loading : Loading history loader memory) {added : PhysMemory}
    (step : memory.addRAMPage (loader.nextMapPpn * 4096#64) = .ok (true, added)) :
    loader.mapPage memory vpn =
      (loader.mapper.map added (mapCall vpn loader.nextMapPpn).mapping).map fun result =>
        (result.1, { loader.insert vpn loader.nextMapPpn with
          nextMapPpn := loader.nextMapPpn + 1
          mapper := result.2.1 }, result.2.2) := by
  have paged : ¬loader.mmuMode = .bare := by
    rw [loading.mode]
    decide
  have page : loader.nextMapPpn * BitVec.ofNat 64 pageSize = loader.nextMapPpn * 4096#64 := rfl
  -- Remembering the page changes neither the builder nor the position of the next page.
  have kept : ({ loader with nextMapPpn := loader.nextMapPpn + 1 } : ElfLoader).insert vpn
      loader.nextMapPpn =
        { loader.insert vpn loader.nextMapPpn with nextMapPpn := loader.nextMapPpn + 1 } := by
    unfold insert
    split <;> rfl
  have builder : (loader.insert vpn loader.nextMapPpn).mapper = loader.mapper := by
    unfold insert
    split <;> rfl
  have same : MemoryMapping.new loadFlags vpn loader.nextMapPpn =
      (mapCall vpn loader.nextMapPpn).mapping := rfl
  -- The loader remembers the page before it calls the builder.
  simp only [ElfLoader.mapPage, if_neg paged, page, step, if_true, kept, builder, same]
  cases loader.mapper.map added (mapCall vpn loader.nextMapPpn).mapping <;> rfl

/-- The mapped keys are those of the calls. -/
theorem mapped_iff (loading : Loading history loader memory) (key : Nat) :
    (mappedBy 3 history key).isSome ↔ ∃ call ∈ history, call.key 3 = key := by
  constructor
  · -- A key is mapped by a call of the history.
    intro mapped
    obtain ⟨mapping, found⟩ := Option.isSome_iff_exists.mp mapped
    obtain ⟨call, member, _, same, _⟩ := mem_of_mappedBy found
    exact ⟨call, member, same⟩
  · rintro ⟨call, member, rfl⟩
    -- Every call of the history ended well.
    have ok : call.status = .ok := by rw [loading.calls call member, mapCall]
    rw [loading.built.mappedBy_of_mem (by decide) (show modeToLevels .sv39 = .ok 3 from rfl)
      (by decide) member ok]
    rfl

/-- A virtual page whose key is not mapped is not known. -/
theorem unknown (loading : Loading history loader memory)
    (fresh : ∀ call ∈ history, call.key 3 ≠ vpn.toNat % 512 ^ 3) : loader.mapping vpn = none := by
  cases known : loader.mapping vpn with
  | none => rfl
  | some ppn => exact absurd rfl (fresh _ ((loading.listed vpn ppn).mp known))

/-- The tables are as before in a memory with the next page. -/
theorem built_added (loading : Loading history loader memory) {added : PhysMemory}
    (elsewhere : ∀ addr, addr.toNat / 4096 ≠ loader.nextMapPpn.toNat →
      added.bytes addr = memory.bytes addr) :
    Built .sv39 0 defaultTableRegionSize history loader.mapper added := by
  obtain ⟨_, _, last, _⟩ :=
    loading.built.represents (by decide) (rfl : modeToLevels .sv39 = .ok 3) (by decide)
  have counted := loading.next
  refine .other added loading.built fun addr inside => elsewhere addr ?_
  -- The page that is added lies above the region, which is therefore as before.
  rw [SimpleMemoryMapper.InRegion, last] at inside
  have bound : addr.toNat / 4096 < 16 := inside.2
  omega

/-- The next page lies above the tables. -/
theorem next_outside (loading : Loading history loader memory) :
    ¬(0 ≤ loader.nextMapPpn ∧ loader.nextMapPpn < defaultTableRegionSize) := by
  have counted := loading.next
  rintro ⟨_, inside⟩
  have bound : loader.nextMapPpn.toNat < 16 := inside
  omega

/-- The call of the builder reports a mapped key, and changes tables alone. -/
theorem map_added (loading : Loading history loader memory) {added : PhysMemory}
    (elsewhere : ∀ addr, addr.toNat / 4096 ≠ loader.nextMapPpn.toNat →
      added.bytes addr = memory.bytes addr) (vpn : VPN) :
    ∃ status made, loader.mapper.map added (mapCall vpn loader.nextMapPpn).mapping =
        .ok (status, made) ∧
      ((∃ call ∈ history, call.key 3 = vpn.toNat % 512 ^ 3) → status = .mapperAlreadyMapped) ∧
      ((∀ call ∈ history, call.key 3 ≠ vpn.toNat % 512 ^ 3) →
        status = .ok ∨ status = .mapperTableRegionEnd) ∧
      made.2.ram = added.ram ∧
      ∀ addr, 16 ≤ addr.toNat / 4096 → made.2.bytes addr = added.bytes addr := by
  have translating : modeToLevels .sv39 = .ok 3 := rfl
  obtain ⟨mode, first, last, tables, represents⟩ :=
    (loading.built_added elsewhere).represents (by decide) translating (by decide)
  -- The page that is mapped is no table.
  have free : ¬(loader.mapper.tableRegionBegin ≤ (mapCall vpn loader.nextMapPpn).mapping.ppn ∧
      (mapCall vpn loader.nextMapPpn).mapping.ppn < loader.mapper.tableRegionEnd) := by
    rw [first, last]
    exact loading.next_outside
  obtain ⟨⟨status, made⟩, called, outcome⟩ := map_step represents (by rw [mode]; exact translating)
    (mapCall vpn loader.nextMapPpn).mapping
  rw [if_neg free] at outcome
  have decided := outcome.status
  rw [show (mapCall vpn loader.nextMapPpn).mapping.vpn = vpn from rfl] at decided
  refine ⟨status, made, called, fun known => ?_, fun fresh => ?_, outcome.ram, fun addr above => ?_⟩
  · -- A mapped key is one of the history.
    rwa [if_pos ((loading.mapped_iff _).mpr known)] at decided
  · have unmapped : ¬(mappedBy 3 history (vpn.toNat % 512 ^ 3)).isSome := by
      rw [loading.mapped_iff]
      rintro ⟨call, member, same⟩
      exact fresh call member same
    rw [if_neg unmapped] at decided
    exact decided.imp_right And.left
  · -- The step changes the region alone, which lies below page 16.
    refine outcome.outside addr fun inside => ?_
    rw [SimpleMemoryMapper.InRegion, last] at inside
    have bound : addr.toNat / 4096 < 16 := inside.2
    omega

/-- What mapping a page does when it ends well. -/
theorem mapPage_ok (loading : Loading history loader memory)
    (result : loader.mapPage memory vpn = .ok (.ok, later, after)) :
    PageMapped history loader memory vpn later after := by
  obtain ⟨added, step, here, elsewhere⟩ := loading.addPage
  have limit := loading.next_lt
  obtain ⟨status, made, called, known, _, ram, outside⟩ := loading.map_added elsewhere vpn
  rw [loading.mapPage_eq step, called] at result
  obtain ⟨rfl, kept⟩ := Prod.mk.inj (Except.ok.inj result)
  obtain ⟨rfl, rfl⟩ := Prod.mk.inj kept
  -- The call ended well, so its key was not mapped.
  have fresh : ∀ call ∈ history, call.key 3 ≠ vpn.toNat % 512 ^ 3 := by
    intro call member same
    cases known ⟨call, member, same⟩
  have unknown := loading.unknown fresh
  have inserted : (loader.insert vpn loader.nextMapPpn).mapping =
      Function.update loader.mapping vpn (some loader.nextMapPpn) := by
    rw [insert, unknown]
    rfl
  have counted := loading.next
  refine
    { mode := ?_
      next := ?_
      unknown := unknown
      fresh := fresh
      mapping := inserted
      built := .map (mapCall vpn loader.nextMapPpn) (loading.built_added elsewhere) called
      zero := fun addr new => by rw [outside addr (by omega)]; exact (here addr new).2
      kept := fun addr above other => by rw [outside addr above]; exact elsewhere addr other
      pages := fun addr => ?_ }
  · -- Remembering a page keeps the mode, whether or not it was known.
    rw [insert]
    split <;> rfl
  · change (loader.nextMapPpn + 1).toNat = _
    rw [BitVec.toNat_add, show (1 : PPN).toNat = 1 from rfl]
    omega
  · -- The builder adds no page of its own.
    rw [PhysMemory.isSome_bytes, PhysMemory.HasPage, ram, ← PhysMemory.HasPage,
      ← PhysMemory.isSome_bytes]
    by_cases new : addr.toNat / 4096 = loader.nextMapPpn.toNat
    · rw [(here addr new).2]
      simp [new]
    · rw [elsewhere addr new, loading.pages]
      omega

end Loading

namespace PageMapped

/-- The pages and calls stay those that the mapping lists. -/
theorem loading (mapped : PageMapped history loader memory vpn later after)
    (loading : Loading history loader memory) :
    Loading (mapCall vpn loader.nextMapPpn :: history) later after := by
  have counted := loading.next
  refine
    { mode := mapped.mode.trans loading.mode
      built := mapped.built
      calls := ?_
      keys := ?_
      next := by rw [mapped.next, counted, List.length_cons, Nat.add_assoc]
      numbered := ?_
      listed := ?_
      distinct := ?_
      pages := fun addr => by rw [mapped.pages, mapped.next] }
  · -- The new call is the one that was made.
    intro call member
    rcases List.mem_cons.mp member with rfl | old
    · rfl
    · exact loading.calls call old
  · -- The key of the new call is none of the earlier ones.
    rw [List.map_cons, List.nodup_cons]
    refine ⟨fun member => ?_, loading.keys⟩
    obtain ⟨call, old, same⟩ := List.mem_map.mp member
    exact mapped.fresh call old same
  · -- The numbers go up with each page.
    intro call member
    rw [mapped.next]
    rcases List.mem_cons.mp member with rfl | old
    · dsimp only [mapCall]
      omega
    · have bounds := loading.numbered call old
      omega
  · intro other ppn
    rw [mapped.mapping, List.mem_cons]
    by_cases same : other = vpn
    · -- The page that is mapped now was not listed before.
      subst same
      rw [Function.update_self]
      constructor
      · intro known
        exact .inl (by rw [Option.some.inj known])
      · rintro (new | old)
        · rw [show ppn = loader.nextMapPpn from congrArg MapCall.ppn new]
        · exact absurd rfl (mapped.fresh _ old)
    · rw [Function.update_of_ne same, loading.listed]
      constructor
      · exact .inr
      · rintro (new | old)
        · exact absurd (congrArg MapCall.vpn new) same
        · exact old
  · -- Two pages with one number would both be new or both be old.
    intro left right ppn known otherKnown
    rw [mapped.mapping] at known otherKnown
    by_cases leftNew : left = vpn <;> by_cases rightNew : right = vpn
    · rw [leftNew, rightNew]
    · -- The new page has a number above those of the others.
      rw [leftNew, Function.update_self] at known
      rw [Function.update_of_ne rightNew] at otherKnown
      cases known
      have bounds := loading.bounds otherKnown
      omega
    · rw [rightNew, Function.update_self] at otherKnown
      rw [Function.update_of_ne leftNew] at known
      cases otherKnown
      have bounds := loading.bounds known
      omega
    · rw [Function.update_of_ne leftNew] at known
      rw [Function.update_of_ne rightNew] at otherKnown
      exact loading.distinct left right ppn known otherKnown

/-- The page appears with zeros, and the others stay. -/
theorem adds (mapped : PageMapped history loader memory vpn later after)
    (loading : Loading history loader memory) :
    (loader.view memory).Adds (later.view after) fun va => va / 4096#64 = vpn := by
  have limit := loading.next_lt
  constructor
  · -- No byte of the page could be seen before.
    intro va here
    rw [view, here, mapped.unknown]
    rfl
  · -- The page that was added backs the virtual page.
    intro va inPage
    have place : (loader.nextMapPpn * 4096#64 + va % 4096#64).toNat =
        loader.nextMapPpn.toNat * 4096 + va.toNat % 4096 := toNat_inPage (by omega) va
    rw [view, inPage, mapped.mapping, Function.update_self, Option.bind_some]
    exact mapped.zero _ (by omega)
  · -- The other pages lie above the tables, which alone have changed.
    intro va apart
    rw [view, view, mapped.mapping, Function.update_of_ne apart]
    cases known : loader.mapping (va / 4096#64) with
    | none => rfl
    | some ppn =>
      have bounds := loading.bounds known
      have place := toNat_inPage bounds.2.2 va
      exact mapped.kept _ (by omega) (by omega)

end PageMapped

end ElfLoader

end RiscvSim

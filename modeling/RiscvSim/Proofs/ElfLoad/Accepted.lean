import RiscvSim.Proofs.ElfLoad.Image
import RiscvSim.Proofs.Memory.Accounting
import Mathlib.Algebra.Order.BigOperators.Group.Finset

/-! The files that the loader accepts. -/

namespace RiscvSim

namespace ElfLoader

/-- The part of a page number that selects entries in three levels. -/
def pageKey (vpn : VPN) : Nat := vpn.toNat % 0x8000000

/-- The tables for pages fit in the loader's region. -/
def TablesFit (keys : Finset Nat) : Prop :=
  1 + tablesBelowRoot 3 keys ≤ defaultTableRegionSize.toNat

/-- Fewer pages need fewer tables. -/
theorem TablesFit.mono {keys more : Finset Nat} (fit : TablesFit more) (subset : keys ⊆ more) :
    TablesFit keys := by
  -- On each level there are at most as many prefixes.
  have fewer : tablesBelowRoot 3 keys ≤ tablesBelowRoot 3 more := by
    refine Finset.sum_le_sum fun k _ => ?_
    exact Finset.card_le_card (Finset.image_subset_image subset)
  rw [TablesFit] at fit ⊢
  omega

/-- Pages can be mapped in turn: their keys are distinct, and their tables fit. -/
structure Mappable (vpns : List VPN) : Prop where
  distinct : (vpns.map pageKey).Nodup
  fit : TablesFit (vpns.map pageKey).toFinset

/-- The order of the pages does not matter. -/
theorem Mappable.perm {vpns others : List VPN} (mappable : Mappable vpns)
    (perm : others.Perm vpns) : Mappable others where
  distinct := (perm.map pageKey).nodup_iff.mpr mappable.distinct
  fit := by
    rw [List.toFinset_eq_of_perm _ _ (perm.map pageKey)]
    exact mappable.fit

/-- Fewer pages can be mapped as well. -/
theorem Mappable.sublist {vpns others : List VPN} (mappable : Mappable vpns)
    (fewer : others.Sublist vpns) : Mappable others where
  distinct := mappable.distinct.sublist (fewer.map pageKey)
  fit := by
    refine mappable.fit.mono fun key member => ?_
    rw [List.mem_toFinset] at member ⊢
    exact (fewer.map pageKey).subset member

variable {history : List MapCall} {loader later created : ElfLoader}
  {memory after start : PhysMemory} {vpn : VPN} {vpns : List VPN}

namespace Loading

/-- The keys of the calls are those of their pages. -/
theorem map_key (loading : Loading history loader memory) :
    mappedVpns 3 history = ((history.map MapCall.vpn).map pageKey).toFinset := by
  -- Every call of the history made its mapping.
  have all : history.filter (fun call =>
      decide (call.status = .ok ∨ call.status = .mapperAlreadyMapped)) = history := by
    rw [List.filter_eq_self]
    intro call member
    rw [loading.calls call member, mapCall]
    rfl
  rw [mappedVpns, all, List.map_map]
  rfl

/-- No call has run out of tables. -/
theorem supplied (loading : Loading history loader memory) :
    ∀ call ∈ history, call.status ≠ .mapperTableRegionEnd := by
  intro call member
  have ok : call.status = .ok := by rw [loading.calls call member, mapCall]
  rw [ok]
  decide

/-- The tables for the pages that were mapped fit. -/
theorem tablesFit (loading : Loading history loader memory) :
    TablesFit ((history.map MapCall.vpn).map pageKey).toFinset := by
  obtain ⟨position, room⟩ :=
    loading.built.currTable_eq (rfl : modeToLevels .sv39 = .ok 3) (by decide) loading.supplied
  -- The builder has as many tables as the pages need, and they are in the region.
  rw [loading.map_key] at position
  rw [TablesFit]
  have first : (0 : PPN).toNat = 0 := rfl
  omega

/-- A page with a new key is mapped while its tables fit. -/
theorem mapPage_fits (loading : Loading history loader memory)
    (fresh : pageKey vpn ∉ (history.map MapCall.vpn).map pageKey)
    (fit : TablesFit (pageKey vpn :: (history.map MapCall.vpn).map pageKey).toFinset) :
    ∃ later after, loader.mapPage memory vpn = .ok (.ok, later, after) := by
  obtain ⟨added, step, _, elsewhere⟩ := loading.addPage
  obtain ⟨status, made, called, _, unmapped, _⟩ := loading.map_added elsewhere vpn
  -- The key is new, so that the call ends well unless it runs out of tables.
  have ways := unmapped fun call member same =>
    fresh (List.mem_map.mpr ⟨call.vpn, List.mem_map_of_mem member, same⟩)
  -- The accounting says when the call runs out: not while the tables fit.
  obtain ⟨other, _, same, ended⟩ := (loading.built_added elsewhere).map_ends_iff
    (rfl : modeToLevels .sv39 = .ok 3) (by decide) loading.supplied loadFlags vpn
    loader.nextMapPpn loading.next_outside
  have again : loader.mapper.map added (MemoryMapping.new loadFlags vpn loader.nextMapPpn) =
    .ok (status, made) := called
  rw [again] at same
  cases same
  have enough : status ≠ .mapperTableRegionEnd := by
    rw [Ne, ended, loading.map_key, show (0 : PPN).toNat = 0 from rfl, Nat.zero_add, Nat.not_lt]
    rw [List.toFinset_cons] at fit
    exact fit
  rw [ways.resolve_right enough] at called
  rw [loading.mapPage_eq step, called]
  exact ⟨_, _, rfl⟩

/-- Pages that can be mapped besides those of the history are mapped. -/
theorem mapsPages (loading : Loading history loader memory) (vpns : List VPN)
    (mappable : Mappable (vpns ++ history.map MapCall.vpn)) :
    ∃ later after, MapsPages vpns loader memory later after := by
  -- By induction on the pages, in the order in which they are mapped.
  induction vpns generalizing history loader memory with
  | nil => exact ⟨loader, memory, .nil loader memory⟩
  | cons vpn rest ih =>
    -- The first page is mapped, and then it belongs to the history.
    have first : Mappable (vpn :: history.map MapCall.vpn) :=
      mappable.sublist ((List.sublist_append_right rest _).cons_cons vpn)
    obtain ⟨next, nextMemory, called⟩ := loading.mapPage_fits
      (List.nodup_cons.mp first.distinct).1 first.fit
    have nextLoading := (loading.mapPage_ok called).loading loading
    obtain ⟨later, after, maps⟩ := ih nextLoading (mappable.perm List.perm_middle)
    exact ⟨later, after, .cons called maps⟩

/-- Segments whose pages can be mapped are loaded. -/
theorem loadSegments_fits (loading : Loading history loader memory) {elfBuf : List (BitVec 8)}
    {phdrs : List GElfPhdr} {iterations : Nat}
    (loadable : ∀ seg ∈ phdrs, seg.pType = ptLoad → Loadable elfBuf seg)
    (mappable : Mappable (loadedVpns phdrs ++ history.map MapCall.vpn))
    (enough : 0x10000000000000000 ≤ iterations) :
    ∃ later after, loadSegments iterations elfBuf phdrs.length phdrs loader memory =
      .ok (some .ok, later, after) := by
  -- By induction on the headers, where a segment's pages join the history.
  induction phdrs generalizing history loader memory with
  | nil => exact ⟨loader, memory, rfl⟩
  | cons seg rest ih =>
    have loadableRest : ∀ seg ∈ rest, seg.pType = ptLoad → Loadable elfBuf seg :=
      fun other member => loadable other (List.mem_cons_of_mem seg member)
    rw [loadedVpns_cons] at mappable
    -- A segment is mapped and then copied, both with enough turns.
    rw [List.length_cons, loadSegments]
    by_cases isLoad : seg.pType = ptLoad
    · rw [if_pos isLoad] at mappable ⊢
      have fits := loadable seg List.mem_cons_self isLoad
      have pages : Mappable (segmentVpns seg ++ history.map MapCall.vpn) :=
        mappable.sublist ((List.sublist_append_left _ _).append_right _)
      obtain ⟨next, mapped, maps⟩ := loading.mapsPages _ pages
      have ran : mapSegment seg iterations loader memory = .ok (some .ok, next, mapped) :=
        mapSegment_of_maps fits maps (by omega)
      obtain ⟨calls, outcome, copies, done, numbers, spec⟩ :=
        maps.copySegment loading fits iterations
      -- A word is less than the number of turns.
      obtain ⟨copied, rfl⟩ := Option.isSome_iff_exists.mp (done (by have := seg.pFilesz.isLt; omega))
      obtain ⟨nextLoading, _⟩ := spec copied rfl
      -- The pages of the segment have moved from those to map to those that were mapped.
      have moved : Mappable (loadedVpns rest ++ (calls ++ history).map MapCall.vpn) := by
        refine mappable.perm ?_
        rw [List.map_append, numbers]
        refine (((List.reverse_perm _).append_right _).append_left _).trans ?_
        rw [← List.append_assoc]
        exact List.perm_append_comm.append_right _
      have loaded : loadSegment iterations elfBuf seg loader memory = .ok (some .ok, next, copied) := by
        rw [loadSegment]
        simp only [ran, copies]
      rw [loaded]
      exact ih nextLoading loadableRest moved
    · -- A header of another type needs no page.
      rw [if_neg isLoad] at mappable ⊢
      exact ih loading loadableRest mappable

end Loading

/-- A new loader can be created. -/
theorem exists_new :
    ∃ created start, ElfLoader.new PhysMemory.new = .ok (created, start) :=
  ⟨_, _, rfl⟩

variable {file : ElfFile}

/-- Loading the stack and a file returns OK, and every byte of the file's segments can be read. -/
def LoadsImage (file : ElfFile) : Prop :=
  ∃ created start loader memory later after sp pc iterations,
    ElfLoader.new PhysMemory.new = .ok (created, start) ∧
    created.mapStack start = .ok (.ok, sp, loader, memory) ∧
    loader.loadElf iterations memory file = .ok (some ⟨.ok, pc⟩, later, after) ∧
    ∀ seg ∈ file.phdrs, seg.pType = ptLoad → ∀ k < seg.pMemsz.toNat,
      Reads after (seg.pVaddr + BitVec.ofNat 64 k) (segmentByte file.bytes seg k)

/-- A file is loaded exactly when the pages of the stack and of its segments can be mapped. -/
theorem loadsImage_iff_mappable (complete : file.Complete)
    (loadable : ∀ seg ∈ file.phdrs, seg.pType = ptLoad → Loadable file.bytes seg) :
    LoadsImage file ↔ Mappable (imageVpns file) := by
  constructor
  · -- A file that was loaded has its pages in the history of the builder.
    rintro ⟨_, _, _, _, _, _, _, _, _, new, stackMapped, loaded, _⟩
    obtain ⟨history, loading, numbers, _⟩ :=
      loading_of_loaded complete new stackMapped loaded loadable
    -- All pages were mapped, each with a key of its own.
    have mapped : Mappable (history.map MapCall.vpn) :=
      ⟨by rw [List.map_map]; exact loading.keys, loading.tablesFit⟩
    rw [numbers] at mapped
    exact mapped.perm (List.reverse_perm _).symm
  · -- Conversely, the stack is mapped into a new loader, and the segments after it.
    intro mappable
    obtain ⟨created, start, new⟩ := exists_new
    obtain ⟨newLoading, base, size⟩ := Loading.new new
    -- The stack's pages are the first ones of the image.
    obtain ⟨loader, memory, maps⟩ := newLoading.mapsPages stackVpns
      (by rw [List.map_nil, List.append_nil]; exact mappable.sublist (List.sublist_append_left _ _))
    have stackMapped := mapStack_of_maps base size maps
    obtain ⟨calls, loading, numbers, _⟩ := maps.adds newLoading
    have rest : Mappable (loadedVpns file.phdrs ++ (calls ++ []).map MapCall.vpn) := by
      rw [List.append_nil, numbers]
      refine mappable.perm ?_
      exact ((List.reverse_perm _).append_left _).trans List.perm_append_comm
    obtain ⟨iterations, enough⟩ : ∃ iterations, 0x10000000000000000 ≤ iterations := ⟨_, Nat.le_refl _⟩
    obtain ⟨later, after, ran⟩ := loading.loadSegments_fits loadable rest enough
    have loaded : loader.loadElf iterations memory file =
        .ok (some ⟨.ok, file.eEntry⟩, later, after) :=
      (loadElf_ok_iff complete).mpr ⟨ran, rfl⟩
    obtain ⟨history, imageLoading, _, _, segments⟩ :=
      loading_of_loaded complete new stackMapped loaded loadable
    refine ⟨created, start, loader, memory, later, after, _, _, iterations, new, stackMapped, loaded,
      fun seg member isLoad k inside => ?_⟩
    exact imageLoading.reads ((segments seg member isLoad).bytes k inside)

/-- The segments of a file that are loaded. -/
def loadSegs (file : ElfFile) : List GElfPhdr :=
  file.phdrs.filter fun seg => seg.pType = ptLoad

/-- The address is one of a segment's bytes. -/
def Covers (seg : GElfPhdr) (addr : Nat) : Prop :=
  seg.pVaddr.toNat ≤ addr ∧ addr < seg.pVaddr.toNat + seg.pMemsz.toNat

/-- A page is one that is mapped for a segment: that of its start, or one that starts inside. -/
def Touches (seg : GElfPhdr) (page : Nat) : Prop :=
  seg.pVaddr.toNat / 4096 ≤ page ∧ page * 4096 < seg.pVaddr.toNat + seg.pMemsz.toNat

instance (seg : GElfPhdr) (page : Nat) : Decidable (Touches seg page) :=
  inferInstanceAs (Decidable (_ ∧ _))

/-- The keys of the pages that hold bytes of the stack or of a file's segments. -/
def bytePages (file : ElfFile) : List Nat :=
  stackVpns.map pageKey ++ (loadSegs file).flatMap fun seg => segmentPages seg.pVaddr seg.pMemsz

/-- An executable whose segments lie apart in the lower half and need no more tables than there
are. -/
structure WellFormed (file : ElfFile) : Prop where
  disjoint : (loadSegs file).Pairwise fun seg other => ∀ addr, ¬(Covers seg addr ∧ Covers other addr)
  below : ∀ seg ∈ loadSegs file, seg.pVaddr.toNat + seg.pMemsz.toNat ≤ 0x4000000000
  filled : ∀ seg ∈ loadSegs file, seg.pFilesz.toNat ≤ seg.pMemsz.toNat
  inFile : ∀ seg ∈ loadSegs file, seg.pOffset.toNat + seg.pFilesz.toNat ≤ file.bytes.length
  tables : TablesFit (bytePages file).toFinset

/-- No page is mapped for two segments. -/
def PagesApart (file : ElfFile) : Prop :=
  (loadSegs file).Pairwise fun seg other => ∀ page, ¬(Touches seg page ∧ Touches other page)

/-- The segments of a well-formed file can be loaded on their own. -/
theorem WellFormed.loadable (wellFormed : WellFormed file) {seg : GElfPhdr}
    (member : seg ∈ loadSegs file) : Loadable file.bytes seg := by
  have below := wellFormed.below seg member
  exact ⟨wellFormed.filled seg member, wellFormed.inFile seg member, by omega⟩

/-- The segments that are loaded are those of the type. -/
theorem mem_loadSegs {seg : GElfPhdr} :
    seg ∈ loadSegs file ↔ seg ∈ file.phdrs ∧ seg.pType = ptLoad := by
  rw [loadSegs, List.mem_filter, decide_eq_true_iff]

/-- Successive page numbers are distinct. -/
theorem nodup_vpnsFrom {count : Nat} (fits : vpn.toNat + count ≤ 0x10000000000000000) :
    (vpnsFrom vpn count).Nodup := by
  -- By induction on the count, the first number is less than all others.
  induction count generalizing vpn with
  | zero => exact List.nodup_nil
  | succ count ih =>
    rw [vpnsFrom, List.nodup_cons]
    by_cases last : count = 0
    · subst last
      exact ⟨List.not_mem_nil, List.nodup_nil⟩
    · have next : (vpn + 1).toNat = vpn.toNat + 1 := by
        rw [BitVec.toNat_add, show (1 : VPN).toNat = 1 from rfl]
        omega
      refine ⟨fun member => ?_, ih (by omega)⟩
      have range := (mem_vpnsFrom (by omega) vpn).mp member
      omega

/-- The stack's pages are the last ones below its base. -/
theorem mem_stackVpns : vpn ∈ stackVpns ↔ 0xffff000 ≤ vpn.toNat ∧ vpn.toNat < 0x10000000 := by
  have first : (defaultStackBase - defaultStackSize).toNat = 0xffff000 := by decide
  rw [stackVpns, mem_vpnsFrom (by omega), first]

/-- The pages of a well-formed file lie in the lower quarter of the keys. -/
theorem WellFormed.vpn_lt (wellFormed : WellFormed file) (member : vpn ∈ loadedVpns file.phdrs) :
    vpn.toNat < 0x4000000 := by
  -- A page belongs to a segment, which ends in the lower half.
  obtain ⟨seg, inFile, inSeg⟩ := List.mem_flatMap.mp member
  have below := wellFormed.below seg inFile
  have range := (mem_segmentVpns (wellFormed.loadable inFile)).mp inSeg
  omega

/-- The loaded pages are distinct when no page is mapped for two segments. -/
theorem WellFormed.nodup_loadedVpns (wellFormed : WellFormed file) :
    (loadedVpns file.phdrs).Nodup ↔ PagesApart file := by
  have touches {seg : GElfPhdr} (member : seg ∈ loadSegs file) (vpn : VPN) :
      vpn ∈ segmentVpns seg ↔ Touches seg vpn.toNat :=
    mem_segmentVpns (wellFormed.loadable member)
  -- A concatenation has no duplicates when its parts have none and share nothing.
  rw [loadedVpns, List.nodup_flatMap]
  constructor
  · rintro ⟨_, apart⟩
    refine List.Pairwise.imp_of_mem (fun {seg other} member otherMember disjoint page both => ?_) apart
    -- A page of a segment has a number, as the segment lies far below the last page.
    have below := wellFormed.below seg member
    have upper := both.1.2
    have number : (BitVec.ofNat 64 page).toNat = page := by
      rw [BitVec.toNat_ofNat]
      omega
    refine disjoint ((touches member (BitVec.ofNat 64 page)).mpr ?_)
      ((touches otherMember (BitVec.ofNat 64 page)).mpr ?_)
    · rw [number]
      exact both.1
    · rw [number]
      exact both.2
  · intro apart
    constructor
    · -- The pages of one segment are counted upwards.
      intro seg member
      have below := wellFormed.below seg member
      apply nodup_vpnsFrom
      rw [toNat_div_page]
      omega
    · -- Two segments share no page, by number.
      refine List.Pairwise.imp_of_mem (fun {seg other} member otherMember disjoint => ?_) apart
      intro vpn inSeg inOther
      exact disjoint vpn.toNat
        ⟨(touches member vpn).mp inSeg, (touches otherMember vpn).mp inOther⟩

/-- The pages of a well-formed file can be mapped when those of its segments lie apart, and their
tables fit. -/
theorem WellFormed.mappable_iff (wellFormed : WellFormed file) : Mappable (imageVpns file) ↔
    PagesApart file ∧ TablesFit ((imageVpns file).map pageKey).toFinset := by
  rw [← wellFormed.nodup_loadedVpns]
  constructor
  · -- Pages with distinct keys are distinct themselves.
    intro ⟨distinct, fit⟩
    have loaded := distinct.of_map.sublist (List.sublist_append_right stackVpns _)
    exact ⟨loaded, fit⟩
  · rintro ⟨distinct, fit⟩
    refine ⟨?_, fit⟩
    rw [imageVpns, List.map_append, List.nodup_append]
    refine ⟨?_, ?_, ?_⟩
    · -- The stack's numbers differ below the bit that is cut off.
      refine List.Nodup.map_on (fun left inLeft right inRight same => ?_)
        (nodup_vpnsFrom (by decide))
      have bounds := mem_stackVpns.mp inLeft
      have otherBounds := mem_stackVpns.mp inRight
      rw [pageKey, pageKey] at same
      apply BitVec.eq_of_toNat_eq
      omega
    · -- Below the quarter of the keys the number of a page is its key.
      refine List.Nodup.map_on (fun left inLeft right inRight same => ?_) distinct
      have bound := wellFormed.vpn_lt inLeft
      have otherBound := wellFormed.vpn_lt inRight
      rw [pageKey, pageKey] at same
      apply BitVec.eq_of_toNat_eq
      omega
    · -- The stack's keys lie in the upper half.
      intro key inStack other inFile same
      obtain ⟨vpn, stackMember, rfl⟩ := List.mem_map.mp inStack
      obtain ⟨vpnOther, fileMember, rfl⟩ := List.mem_map.mp inFile
      have bounds := mem_stackVpns.mp stackMember
      have otherBound := wellFormed.vpn_lt fileMember
      rw [pageKey, pageKey] at same
      omega

/-- A well-formed file is loaded when its pages can be mapped. -/
theorem WellFormed.loadsImage_iff_mappable (wellFormed : WellFormed file)
    (complete : file.Complete) : LoadsImage file ↔ Mappable (imageVpns file) :=
  ElfLoader.loadsImage_iff_mappable complete fun _ member isLoad =>
    wellFormed.loadable (mem_loadSegs.mpr ⟨member, isLoad⟩)

/-- A well-formed file is loaded exactly when no page is mapped for two of its segments, and the
tables for the pages fit. -/
theorem loadsImage_iff (complete : file.Complete) (wellFormed : WellFormed file) :
    LoadsImage file ↔
      PagesApart file ∧ TablesFit ((imageVpns file).map pageKey).toFinset := by
  rw [wellFormed.loadsImage_iff_mappable complete, wellFormed.mappable_iff]

/-- The tables for pages in the first two mebibytes and for the stack fit. -/
theorem tablesFit_low {keys : Finset Nat}
    (low : ∀ key ∈ keys, key < 0x200 ∨ 0x7fff000 ≤ key ∧ key < 0x8000000) : TablesFit keys := by
  -- The stack needs eight of the lowest tables and one above, and the first pages one of each.
  have lowest : (keys.image fun key => key / 2 ^ (9 * 1)).card ≤
      ({0} ∪ Finset.Icc 0x3fff8 0x3ffff).card := by
    refine Finset.card_le_card fun quotient member => ?_
    -- The prefixes of the keys are among those numbers.
    obtain ⟨key, known, rfl⟩ := Finset.mem_image.mp member
    have range := low key known
    rw [Finset.mem_union, Finset.mem_singleton, Finset.mem_Icc]
    omega
  have middle : (keys.image fun key => key / 2 ^ (9 * 2)).card ≤
      ({0} ∪ Finset.Icc 0x1ff 0x1ff).card := by
    refine Finset.card_le_card fun quotient member => ?_
    obtain ⟨key, known, rfl⟩ := Finset.mem_image.mp member
    have range := low key known
    rw [Finset.mem_union, Finset.mem_singleton, Finset.mem_Icc]
    omega
  have levels : Finset.Icc 1 (3 - 1) = {1, 2} := by decide
  have lowestCount : ({0} ∪ Finset.Icc 0x3fff8 0x3ffff : Finset Nat).card = 9 := by decide
  have middleCount : ({0} ∪ Finset.Icc 0x1ff 0x1ff : Finset Nat).card = 2 := by decide
  have room : defaultTableRegionSize.toNat = 16 := by decide
  rw [TablesFit, tablesBelowRoot, levels, Finset.sum_pair (by decide), room]
  omega

/-- A file with a program that ends in a second page, and with data of four bytes and four zeros.

The program loads the data, stores it on the stack, jumps on and leaves.
-/
def smallFile : ElfFile where
  bytes := [
    0x37, 0x23, 0x01, 0x00,
    0x83, 0x32, 0x03, 0x00,
    0x23, 0x3c, 0x51, 0xfe,
    0x6f, 0x00, 0x40, 0x00,
    0x73, 0x00, 0x00, 0x00,
    0x01, 0x02, 0x03, 0x04]
  readNum := some 24
  ePhnum := 2
  phdrs := [⟨ptLoad, 0, 0x10ff4, 20, 20⟩, ⟨ptLoad, 20, 0x12000, 4, 8⟩]
  eEntry := 0x10ff4

/-- A file with two segments that lie apart in one page. -/
def sharedFile : ElfFile where
  bytes := [0x13, 0, 0, 0]
  readNum := some 4
  ePhnum := 2
  phdrs := [⟨ptLoad, 0, 0x10000, 4, 4⟩, ⟨ptLoad, 0, 0x10010, 4, 4⟩]
  eEntry := 0x10000

/-- The tables for the stack and for pages in the first two mebibytes fit. -/
theorem tablesFit_stack {pages : List Nat} (low : ∀ page ∈ pages, page < 0x200) :
    TablesFit (stackVpns.map pageKey ++ pages).toFinset := by
  apply tablesFit_low
  -- A key of the list is one of the stack or one of the first pages.
  intro key member
  rw [List.mem_toFinset, List.mem_append] at member
  rcases member with inStack | inPages
  · obtain ⟨vpn, stackMember, rfl⟩ := List.mem_map.mp inStack
    have bounds := mem_stackVpns.mp stackMember
    rw [pageKey]
    omega
  · exact .inl (low key inPages)

/-- The small file is read as a whole. -/
theorem smallFile_complete : smallFile.Complete :=
  ⟨rfl, rfl⟩

/-- The file with two segments in one page is read as a whole. -/
theorem sharedFile_complete : sharedFile.Complete :=
  ⟨rfl, rfl⟩

/-- No page is mapped for both segments of the small file. -/
theorem smallFile_apart : PagesApart smallFile := by
  rw [PagesApart, show loadSegs smallFile = smallFile.phdrs by decide, smallFile,
    List.pairwise_pair]
  -- The program ends below the page of the data.
  rintro page ⟨⟨_, upper⟩, lower, _⟩
  simp at upper lower
  omega

/-- The small file is well formed. -/
theorem smallFile_wellFormed : WellFormed smallFile where
  disjoint := by
    rw [show loadSegs smallFile = smallFile.phdrs by decide, smallFile, List.pairwise_pair]
    rintro addr ⟨⟨_, upper⟩, lower, _⟩
    simp at upper lower
    omega
  below := by decide
  filled := by decide
  inFile := by decide
  tables := tablesFit_stack (by decide)

/-- The pages of the small file need few tables. -/
theorem smallFile_fit : TablesFit ((imageVpns smallFile).map pageKey).toFinset := by
  rw [imageVpns, List.map_append]
  exact tablesFit_stack (by decide)

/-- The file with two segments in one page is well formed. -/
theorem sharedFile_wellFormed : WellFormed sharedFile where
  disjoint := by
    rw [show loadSegs sharedFile = sharedFile.phdrs by decide, sharedFile, List.pairwise_pair]
    -- The first segment ends below the second one.
    rintro addr ⟨⟨_, upper⟩, lower, _⟩
    simp at upper lower
    omega
  below := by decide
  filled := by decide
  inFile := by decide
  tables := tablesFit_stack (by decide)

/-- The page of both segments would be mapped twice. -/
theorem sharedFile_touches : ¬PagesApart sharedFile := by
  rw [PagesApart, show loadSegs sharedFile = sharedFile.phdrs by decide, sharedFile,
    List.pairwise_pair]
  intro apart
  exact apart 16 ⟨by decide, by decide⟩

/-- The small file is loaded. -/
theorem loadsImage_small : LoadsImage smallFile :=
  (loadsImage_iff smallFile_complete smallFile_wellFormed).mpr ⟨smallFile_apart, smallFile_fit⟩

/-- A well-formed file whose segments share a page is not loaded. -/
theorem not_loadsImage_shared :
    ¬∀ file : ElfFile, file.Complete → WellFormed file → LoadsImage file := by
  intro claimed
  -- Both segments need the same page.
  have mappable := (sharedFile_wellFormed.loadsImage_iff_mappable sharedFile_complete).mp
    (claimed sharedFile sharedFile_complete sharedFile_wellFormed)
  exact sharedFile_touches (sharedFile_wellFormed.mappable_iff.mp mappable).1

/-- The image of the small file is in memory after it was loaded. -/
theorem imageLoaded_small : ∃ created start loader memory later after sp pc iterations,
    ElfLoader.new PhysMemory.new = .ok (created, start) ∧
      created.mapStack start = .ok (.ok, sp, loader, memory) ∧
      loader.loadElf iterations memory smallFile = .ok (some ⟨.ok, pc⟩, later, after) ∧
      ImageLoaded smallFile later after := by
  obtain ⟨created, start, loader, memory, later, after, sp, pc, iterations, new, stackMapped, loaded,
    _⟩ := (smallFile_wellFormed.loadsImage_iff_mappable smallFile_complete).mpr
      (smallFile_wellFormed.mappable_iff.mpr ⟨smallFile_apart, smallFile_fit⟩)
  refine ⟨created, start, loader, memory, later, after, sp, pc, iterations, new, stackMapped, loaded,
    imageLoaded smallFile_complete new stackMapped loaded fun seg member isLoad => ?_⟩
  exact smallFile_wellFormed.loadable (mem_loadSegs.mpr ⟨member, isLoad⟩)

end ElfLoader

end RiscvSim

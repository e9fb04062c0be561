import RiscvSim.Proofs.ElfLoad.Copying
import RiscvSim.Proofs.ElfLoad.PageLoop

/-! What the loops over pages and segments leave behind when they end well. -/

namespace RiscvSim

namespace ElfLoader

/-- Pages are mapped one after the other, and each call ends well. -/
inductive MapsPages : List VPN → ElfLoader → PhysMemory → ElfLoader → PhysMemory → Prop where
  | nil (loader : ElfLoader) (memory : PhysMemory) : MapsPages [] loader memory loader memory
  | cons {vpn : VPN} {rest : List VPN} {loader next later : ElfLoader}
      {memory nextMemory after : PhysMemory} :
      loader.mapPage memory vpn = .ok (.ok, next, nextMemory) →
      MapsPages rest next nextMemory later after →
      MapsPages (vpn :: rest) loader memory later after

/-- The page numbers from one upwards. -/
def vpnsFrom : VPN → Nat → List VPN
  | _, 0 => []
  | vpn, count + 1 => vpn :: vpnsFrom (vpn + 1) count

variable {history : List MapCall} {loader later : ElfLoader} {memory after : PhysMemory}
  {vpn : VPN} {vpns : List VPN} {elfBuf : List (BitVec 8)} {seg : GElfPhdr} {iterations : Nat}

/-- A page number is one of those from the first upwards. -/
theorem mem_vpnsFrom {count : Nat} (fits : vpn.toNat + count ≤ 0x10000000000000000)
    (other : VPN) : other ∈ vpnsFrom vpn count ↔
      vpn.toNat ≤ other.toNat ∧ other.toNat < vpn.toNat + count := by
  -- By induction on the count, the first number is taken off.
  induction count generalizing vpn with
  | zero =>
    rw [vpnsFrom]
    simp
  | succ count ih =>
    have bound := other.isLt
    rw [vpnsFrom, List.mem_cons]
    by_cases last : vpn.toNat = 0xffffffffffffffff
    · -- Nothing comes after the last number.
      obtain rfl : count = 0 := by omega
      rw [vpnsFrom, ← BitVec.toNat_inj]
      simp only [List.not_mem_nil, or_false]
      omega
    · have next : (vpn + 1).toNat = vpn.toNat + 1 := by
        rw [BitVec.toNat_add, show (1 : VPN).toNat = 1 from rfl]
        omega
      rw [ih (by omega), next, ← BitVec.toNat_inj]
      omega

/-- Mapped pages are listed by the mapping, newest first, and appear with zeros. -/
theorem MapsPages.adds (maps : MapsPages vpns loader memory later after)
    (loading : Loading history loader memory) : ∃ calls,
      Loading (calls ++ history) later after ∧ calls.map MapCall.vpn = vpns.reverse ∧
        (loader.view memory).Adds (later.view after) fun va => va / 4096#64 ∈ vpns := by
  -- By induction on the calls: a page appears, and the others appear after it.
  induction maps generalizing history with
  | nil loader memory =>
    exact ⟨[], loading, rfl, (ByteStore.Adds.refl _).congr fun va => by simp⟩
  | @cons vpn rest loader next later memory nextMemory after called maps ih =>
    have mapped := loading.mapPage_ok called
    obtain ⟨calls, laterLoading, numbers, adds⟩ := ih (mapped.loading loading)
    -- The history lists the newest call first, and the pages are listed in order.
    refine ⟨calls ++ [mapCall vpn loader.nextMapPpn], ?_, ?_, ?_⟩
    · rw [List.append_assoc]
      exact laterLoading
    · rw [List.map_append, numbers, List.reverse_cons]
      rfl
    · exact ((mapped.adds loading).trans adds).congr fun va => List.mem_cons

/-- The stack loop maps the pages from the first one upwards. -/
theorem mapStackFrom_ok_iff (count : Nat) : mapStackFrom count vpn loader memory =
    .ok (.ok, later, after) ↔ MapsPages (vpnsFrom vpn count) loader memory later after := by
  -- By induction on the count, one page is mapped in each turn.
  induction count generalizing vpn loader memory with
  | zero =>
    constructor
    · intro result
      cases result
      exact .nil later after
    · intro maps
      cases maps
      rfl
  | succ count ih =>
    rw [mapStackFrom, vpnsFrom]
    -- A turn that does not end well ends the loop with its status.
    constructor
    · intro result
      split at result
      · cases result
      · rename_i status next nextMemory called
        split at result
        · rename_i failed
          cases result
          exact absurd rfl failed
        · rename_i ok
          rw [Decidable.not_not.mp ok] at called
          exact .cons called (ih.mp result)
    · intro maps
      cases maps with
      | cons called rest => simpa only [called, ne_eq, not_true, if_false] using ih.mpr rest

/-- The way that a segment's pages are mapped. -/
abbrev mapNext (pageVpn : VPN) (state : ElfLoader × PhysMemory) :
    Except Abort (SimStatus × ElfLoader × PhysMemory) :=
  state.1.mapPage state.2 pageVpn

/-- The size of a page as a word. -/
theorem ofNat_pageSize : BitVec.ofNat 64 pageSize = 4096#64 := by
  rfl

/-- The next page address has the next page number. -/
theorem add_page_div {currPageVa : VirtAddr} (aligned : currPageVa.toNat % 4096 = 0)
    (below : currPageVa.toNat < 0xfffffffffffff000) :
    (currPageVa + 4096#64) / 4096#64 = currPageVa / 4096#64 + 1 := by
  apply BitVec.eq_of_toNat_eq
  have moved := toNat_add_pageSize currPageVa below
  rw [ofNat_pageSize] at moved
  rw [toNat_div_page, moved, BitVec.toNat_add, toNat_div_page, show (1 : VPN).toNat = 1 from rfl]
  omega

/-- The loop over a segment's pages maps those up to its end. -/
theorem mapPages_ok {segEnd : VirtAddr} (low : segEnd.toNat ≤ 0xfffffffffffff000)
    (iterations : Nat) (currPageVa : VirtAddr) (aligned : currPageVa.toNat % 4096 = 0)
    (result : mapPages mapNext segEnd iterations currPageVa (loader, memory) =
      .ok (some .ok, later, after)) :
    MapsPages (vpnsFrom (currPageVa / 4096#64)
      ((segEnd.toNat + 4095) / 4096 - currPageVa.toNat / 4096)) loader memory later after := by
  -- By induction on the turns, each of which maps the page at the address.
  induction iterations generalizing currPageVa loader memory with
  | zero => cases result
  | succ iterations ih =>
    rw [mapPages, ofNat_pageSize] at result
    split at result
    · rename_i more
      rw [BitVec.lt_def] at more
      have moved := toNat_add_pageSize currPageVa (by omega)
      rw [ofNat_pageSize] at moved
      -- The next page is mapped before its status is looked at.
      split at result
      · cases result
      · rename_i status next called
        split at result
        · rename_i failed
          cases result
          exact absurd rfl failed
        · rename_i ok
          have rest := ih _ (by omega) result
          rw [add_page_div aligned (by omega), moved] at rest
          rw [Decidable.not_not.mp ok] at called
          rw [show (segEnd.toNat + 4095) / 4096 - currPageVa.toNat / 4096 =
            (segEnd.toNat + 4095) / 4096 - (currPageVa.toNat + 4096) / 4096 + 1 by omega, vpnsFrom]
          exact .cons called rest
    · -- The address has reached the end, so no page is left.
      rename_i done
      rw [BitVec.lt_def] at done
      cases result
      rw [show (segEnd.toNat + 4095) / 4096 - currPageVa.toNat / 4096 = 0 by omega]
      exact .nil later after

/-- With enough turns the loop goes through the calls that end well. -/
theorem mapPages_of_maps {segEnd : VirtAddr} (low : segEnd.toNat ≤ 0xfffffffffffff000)
    {count : Nat} (currPageVa : VirtAddr) (aligned : currPageVa.toNat % 4096 = 0)
    (left : (segEnd.toNat + 4095) / 4096 - currPageVa.toNat / 4096 = count)
    (maps : MapsPages (vpnsFrom (currPageVa / 4096#64) count) loader memory later after)
    (enough : count < iterations) :
    mapPages mapNext segEnd iterations currPageVa (loader, memory) =
      .ok (some .ok, later, after) := by
  -- By induction on the pages that are left, which the turns are more than.
  induction count generalizing currPageVa loader memory iterations with
  | zero =>
    obtain ⟨turns, rfl⟩ := Nat.exists_eq_succ_of_ne_zero (Nat.ne_of_gt enough)
    have done : ¬currPageVa < segEnd := by
      rw [BitVec.lt_def]
      omega
    cases maps
    rw [mapPages, if_neg done]
  | succ count ih =>
    obtain ⟨turns, rfl⟩ := Nat.exists_eq_succ_of_ne_zero (Nat.ne_of_gt (Nat.zero_lt_of_lt enough))
    have more : currPageVa < segEnd := by
      rw [BitVec.lt_def]
      omega
    rw [BitVec.lt_def] at more
    have moved := toNat_add_pageSize currPageVa (by omega)
    rw [ofNat_pageSize] at moved
    rw [vpnsFrom] at maps
    cases maps with
    | cons called rest =>
      rw [← add_page_div aligned (by omega)] at rest
      have ran : mapPages mapNext segEnd turns (currPageVa + 4096#64) _ =
          .ok (some .ok, later, after) := ih _ (by omega) (by omega) rest (by omega)
      rw [mapPages, if_pos (show currPageVa < segEnd from more), ofNat_pageSize]
      simpa only [mapNext, called, ne_eq, not_true, if_false] using ran

/-- The numbers of the pages that are mapped for a segment. -/
def segmentVpns (seg : GElfPhdr) : List VPN :=
  vpnsFrom (seg.pVaddr / 4096#64)
    ((seg.pVaddr.toNat + seg.pMemsz.toNat + 4095) / 4096 - seg.pVaddr.toNat / 4096)

/-- A segment whose bytes are in the file, and whose pages lie below the last page. -/
structure Loadable (elfBuf : List (BitVec 8)) (seg : GElfPhdr) : Prop where
  filled : seg.pFilesz.toNat ≤ seg.pMemsz.toNat
  inFile : seg.pOffset.toNat + seg.pFilesz.toNat ≤ elfBuf.length
  below : seg.pVaddr.toNat + seg.pMemsz.toNat < 0xfffffffffffff000

/-- The byte of a segment: one of the file, or zero behind those. -/
def segmentByte (elfBuf : List (BitVec 8)) (seg : GElfPhdr) (k : Nat) : BitVec 8 :=
  if k < seg.pFilesz.toNat then elfBuf.getD (seg.pOffset.toNat + k) 0 else 0

/-- A segment was loaded: its pages are there, and its bytes are at its addresses. -/
structure SegmentLoaded (elfBuf : List (BitVec 8)) (seg : GElfPhdr) (store : ByteStore 64) :
    Prop where
  bytes : ∀ k < seg.pMemsz.toNat,
    store (seg.pVaddr + BitVec.ofNat 64 k) = some (segmentByte elfBuf seg k)
  pages : ∀ va : VirtAddr, va / 4096#64 ∈ segmentVpns seg → (store va).isSome

/-- The byte at an address in the pages of a segment: one of its own, or zero around those. -/
def pageByte (elfBuf : List (BitVec 8)) (seg : GElfPhdr) (va : VirtAddr) : BitVec 8 :=
  if seg.pVaddr.toNat ≤ va.toNat then segmentByte elfBuf seg (va.toNat - seg.pVaddr.toNat) else 0

/-- The pages of a segment hold its bytes and zeros around those. -/
def SegmentPlaced (elfBuf : List (BitVec 8)) (seg : GElfPhdr) (store : ByteStore 64) : Prop :=
  ∀ va : VirtAddr, va / 4096#64 ∈ segmentVpns seg → store va = some (pageByte elfBuf seg va)

/-- The pages of a segment stay where their bytes are kept. -/
theorem SegmentPlaced.mono {before store : ByteStore 64} (placed : SegmentPlaced elfBuf seg before)
    (keeps : before.Keeps store) : SegmentPlaced elfBuf seg store :=
  fun va member => keeps.found (placed va member)

/-- A page belongs to a segment when it starts below the end of the segment. -/
theorem mem_segmentVpns (loadable : Loadable elfBuf seg) : vpn ∈ segmentVpns seg ↔
    seg.pVaddr.toNat / 4096 ≤ vpn.toNat ∧
      vpn.toNat * 4096 < seg.pVaddr.toNat + seg.pMemsz.toNat := by
  have below := loadable.below
  rw [segmentVpns, mem_vpnsFrom (by rw [toNat_div_page]; omega), toNat_div_page]
  omega

/-- The bytes of a segment are at its addresses when its pages hold them. -/
theorem SegmentPlaced.loaded {store : ByteStore 64} (placed : SegmentPlaced elfBuf seg store)
    (loadable : Loadable elfBuf seg) : SegmentLoaded elfBuf seg store where
  bytes k inside := by
    have below := loadable.below
    have position : (seg.pVaddr + BitVec.ofNat 64 k).toNat = seg.pVaddr.toNat + k := by
      rw [BitVec.toNat_add, BitVec.toNat_ofNat]
      omega
    -- The address lies in a page that starts below the end of the segment.
    rw [placed _ ((mem_segmentVpns loadable).mpr (by rw [toNat_div_page]; omega)), pageByte,
      position, if_pos (by omega), Nat.add_sub_cancel_left]
  pages va member := by
    rw [placed va member]
    rfl

/-- The loop over a segment's pages starts with its first one, and ends below the last page. -/
theorem Loadable.loop (loadable : Loadable elfBuf seg) :
    (seg.pVaddr + seg.pMemsz).toNat ≤ 0xfffffffffffff000 ∧
      (pageBase seg.pVaddr).toNat % 4096 = 0 ∧
      segmentVpns seg = vpnsFrom (pageBase seg.pVaddr / 4096#64)
        (((seg.pVaddr + seg.pMemsz).toNat + 4095) / 4096 - (pageBase seg.pVaddr).toNat / 4096) := by
  have below := loadable.below
  have base := toNat_pageBase seg.pVaddr
  -- The end of the segment does not wrap.
  have segEnd : (seg.pVaddr + seg.pMemsz).toNat = seg.pVaddr.toNat + seg.pMemsz.toNat := by
    rw [BitVec.toNat_add]
    omega
  have first : pageBase seg.pVaddr / 4096#64 = seg.pVaddr / 4096#64 := by
    rw [div_page_eq_iff]
    omega
  refine ⟨by omega, by omega, ?_⟩
  rw [segmentVpns, first, segEnd, base, show (seg.pVaddr.toNat - seg.pVaddr.toNat % 4096) / 4096 =
    seg.pVaddr.toNat / 4096 by omega]

/-- The pages of a segment are mapped when its loop ends well. -/
theorem mapSegment_ok (loadable : Loadable elfBuf seg)
    (result : mapSegment seg iterations loader memory = .ok (some .ok, later, after)) :
    MapsPages (segmentVpns seg) loader memory later after := by
  obtain ⟨low, aligned, pages⟩ := loadable.loop
  rw [pages]
  exact mapPages_ok low iterations (pageBase seg.pVaddr) aligned result

/-- With enough turns the loop maps the pages of a segment that can be mapped. -/
theorem mapSegment_of_maps (loadable : Loadable elfBuf seg)
    (maps : MapsPages (segmentVpns seg) loader memory later after)
    (enough : 0x10000000000000 < iterations) :
    mapSegment seg iterations loader memory = .ok (some .ok, later, after) := by
  obtain ⟨low, aligned, pages⟩ := loadable.loop
  rw [pages] at maps
  exact mapPages_of_maps low (pageBase seg.pVaddr) aligned rfl maps (by omega)

/-- A byte is seen in known pages alone. -/
theorem mapping_of_view {va : VirtAddr} (seen : (loader.view memory va).isSome) :
    (loader.mapping (va / 4096#64)).isSome := by
  rw [view] at seen
  -- An unknown page shows no byte.
  cases known : loader.mapping (va / 4096#64) with
  | none =>
    rw [known] at seen
    cases seen
  | some ppn => rfl

/-- Behind its mapped pages, the bytes of a segment are copied to its addresses. -/
theorem MapsPages.copySegment (maps : MapsPages (segmentVpns seg) loader memory later after)
    (loading : Loading history loader memory) (loadable : Loadable elfBuf seg) (iterations : Nat) :
    ∃ calls outcome, later.copySegment elfBuf seg iterations 0 after = .ok outcome ∧
      (seg.pFilesz.toNat < iterations → outcome.isSome) ∧
      calls.map MapCall.vpn = (segmentVpns seg).reverse ∧
      ∀ copied, outcome = some copied → Loading (calls ++ history) later copied ∧
        (loader.view memory).Keeps (later.view copied) ∧
        SegmentPlaced elfBuf seg (later.view copied) := by
  obtain ⟨filled, inFile, below⟩ := loadable
  obtain ⟨calls, laterLoading, numbers, adds⟩ := maps.adds loading
  -- A page of the segment starts below its end, as the pages that were mapped do.
  have inSegment (addr : VirtAddr) (lower : seg.pVaddr.toNat / 4096 ≤ addr.toNat / 4096)
      (upper : addr.toNat / 4096 * 4096 < seg.pVaddr.toNat + seg.pMemsz.toNat) :
      addr / 4096#64 ∈ segmentVpns seg := by
    rw [mem_segmentVpns ⟨filled, inFile, below⟩, toNat_div_page]
    exact ⟨lower, upper⟩
  -- The bytes from the file lie in the segment, whose pages are known.
  have known : ∀ addr : VirtAddr, seg.pVaddr.toNat ≤ addr.toNat →
      addr.toNat < seg.pVaddr.toNat + seg.pFilesz.toNat →
      (later.mapping (addr / 4096#64)).isSome := by
    intro addr lower upper
    apply mapping_of_view
    rw [adds.zero addr (inSegment addr (by omega) (by omega))]
    rfl
  -- The pages were mapped with zeros, and nothing has been written to them.
  have blank : ∀ addr : VirtAddr, (0 : BitVec 64).toNat < seg.pFilesz.toNat →
      (seg.pVaddr.toNat + (0 : BitVec 64).toNat) / 4096 ≤ addr.toNat / 4096 →
      addr.toNat / 4096 ≤ (seg.pVaddr.toNat + seg.pFilesz.toNat - 1) / 4096 →
      later.view after addr = some 0 := by
    intro addr more lower upper
    rw [show (0 : BitVec 64).toNat = 0 from rfl] at more lower
    exact adds.zero addr (inSegment addr (by omega) (by omega))
  obtain ⟨outcome, ran, enough, spec⟩ :=
    laterLoading.copySegment_ok inFile (by omega) known iterations 0 blank
  refine ⟨calls, outcome, ran, enough, numbers, fun copied same => ?_⟩
  obtain ⟨copiedLoading, view⟩ := spec copied same
  have place : seg.pVaddr + (0 : BitVec 64) = seg.pVaddr := BitVec.add_zero _
  rw [place, show (0 : BitVec 64).toNat = 0 from rfl, Nat.add_zero, Nat.sub_zero] at view
  have length : ((elfBuf.drop seg.pOffset.toNat).take seg.pFilesz.toNat).length =
      seg.pFilesz.toNat := by
    rw [List.length_take, List.length_drop]
    omega
  -- The bytes that are copied lie in pages of the segment.
  have inRun (addr : VirtAddr) (within : ByteStore.InRun seg.pVaddr seg.pFilesz.toNat addr) :
      seg.pVaddr.toNat ≤ addr.toNat ∧ addr.toNat < seg.pVaddr.toNat + seg.pFilesz.toNat := by
    have bound := addr.isLt
    rw [ByteStore.InRun, BitVec.toNat_sub] at within
    omega
  refine ⟨copiedLoading, ?_, ?_⟩
  · -- The write stays in the pages of the segment, which are new.
    rw [view]
    refine adds.keeps_overwrite fun addr within => ?_
    rw [length] at within
    have range := inRun addr within
    exact inSegment addr (by omega) (by omega)
  · -- A byte of the pages is one that was copied, or a zero before or behind those.
    intro va member
    have zero := adds.zero va member
    rw [view, pageByte, segmentByte, ByteStore.overwrite, length]
    by_cases within : ByteStore.InRun seg.pVaddr seg.pFilesz.toNat va
    · have range := inRun va within
      have distance : (va - seg.pVaddr).toNat = va.toNat - seg.pVaddr.toNat := by
        rw [BitVec.toNat_sub]
        omega
      rw [if_pos within, zero, if_pos range.1, if_pos (by omega), distance]
      have inside : va.toNat - seg.pVaddr.toNat < seg.pFilesz.toNat := by omega
      simp [List.getD_eq_getElem?_getD, inside]
    · rw [if_neg within, zero]
      split
      · rw [if_neg]
        intro inside
        apply within
        rw [ByteStore.InRun, BitVec.toNat_sub]
        omega
      · rfl

/-- Loading a segment that ends well maps its pages and copies its bytes. -/
theorem Loading.loadSegment_ok (loading : Loading history loader memory)
    (loadable : Loadable elfBuf seg)
    (result : loadSegment iterations elfBuf seg loader memory = .ok (some .ok, later, after)) :
    ∃ calls, Loading (calls ++ history) later after ∧
      calls.map MapCall.vpn = (segmentVpns seg).reverse ∧
      (loader.view memory).Keeps (later.view after) ∧
      SegmentPlaced elfBuf seg (later.view after) := by
  rw [loadSegment] at result
  split at result
  · cases result
  · rename_i mapper mapped called
    have maps := mapSegment_ok loadable called
    obtain ⟨calls, outcome, ran, _, numbers, spec⟩ := maps.copySegment loading loadable iterations
    -- The copy was made from the state that mapping the pages left.
    rw [ran] at result
    cases outcome with
    | none => cases result
    | some copied =>
      cases result
      obtain ⟨laterLoading, loaded⟩ := spec after rfl
      exact ⟨calls, laterLoading, numbers, loaded⟩
  · rename_i unfinished _
    cases result
    exact absurd rfl unfinished

/-- The numbers of the pages that are mapped for the segments that are loaded. -/
def loadedVpns (phdrs : List GElfPhdr) : List VPN :=
  (phdrs.filter fun seg => seg.pType = ptLoad).flatMap segmentVpns

/-- The pages of the first segment come first, when it is loaded. -/
theorem loadedVpns_cons (seg : GElfPhdr) (rest : List GElfPhdr) : loadedVpns (seg :: rest) =
    if seg.pType = ptLoad then segmentVpns seg ++ loadedVpns rest else loadedVpns rest := by
  rw [loadedVpns, List.filter_cons]
  by_cases isLoad : seg.pType = ptLoad
  · rw [if_pos isLoad, if_pos (by simpa using isLoad), List.flatMap_cons, loadedVpns]
  · rw [if_neg isLoad, if_neg (by simpa using isLoad), loadedVpns]

/-- Loading segments that ends well loads each of them. -/
theorem Loading.loadSegments_ok (loading : Loading history loader memory) {phdrs : List GElfPhdr}
    (loadable : ∀ seg ∈ phdrs, seg.pType = ptLoad → Loadable elfBuf seg)
    (result : loadSegments iterations elfBuf phdrs.length phdrs loader memory =
      .ok (some .ok, later, after)) :
    ∃ calls, Loading (calls ++ history) later after ∧
      calls.map MapCall.vpn = (loadedVpns phdrs).reverse ∧
      (loader.view memory).Keeps (later.view after) ∧
      ∀ seg ∈ phdrs, seg.pType = ptLoad → SegmentPlaced elfBuf seg (later.view after) := by
  -- By induction on the headers, the calls of later segments come on top.
  induction phdrs generalizing history loader memory with
  | nil =>
    cases result
    exact ⟨[], loading, rfl, ByteStore.Keeps.refl _, fun seg never => absurd never List.not_mem_nil⟩
  | cons seg rest ih =>
    have loadableRest : ∀ seg ∈ rest, seg.pType = ptLoad → Loadable elfBuf seg :=
      fun other member => loadable other (List.mem_cons_of_mem seg member)
    rw [List.length_cons, loadSegments] at result
    by_cases isLoad : seg.pType = ptLoad
    · rw [if_pos isLoad] at result
      split at result
      · cases result
      · rename_i next nextMemory called
        obtain ⟨calls, nextLoading, numbers, keeps, loaded⟩ :=
          loading.loadSegment_ok (loadable seg List.mem_cons_self isLoad) called
        obtain ⟨laterCalls, laterLoading, laterNumbers, laterKeeps, laterLoaded⟩ :=
          ih nextLoading loadableRest result
        refine ⟨laterCalls ++ calls, ?_, ?_, keeps.trans laterKeeps, ?_⟩
        · rw [List.append_assoc]
          exact laterLoading
        · rw [List.map_append, laterNumbers, numbers, ← List.reverse_append, loadedVpns_cons,
            if_pos isLoad]
        · -- What a segment left stays, as later segments only add pages.
          intro other member otherLoad
          rcases List.mem_cons.mp member with rfl | later
          · exact loaded.mono laterKeeps
          · exact laterLoaded other later otherLoad
      · rename_i unfinished _
        cases result
        exact absurd rfl unfinished
    · -- A header of another type is passed over.
      rw [if_neg isLoad] at result
      obtain ⟨calls, laterLoading, numbers, keeps, loaded⟩ := ih loading loadableRest result
      refine ⟨calls, laterLoading, ?_, keeps, ?_⟩
      · rw [numbers, loadedVpns_cons, if_neg isLoad]
      · intro other member otherLoad
        rcases List.mem_cons.mp member with rfl | later
        · exact absurd otherLoad isLoad
        · exact loaded other later otherLoad

end ElfLoader

end RiscvSim

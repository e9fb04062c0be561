import RiscvSim.Proofs.ElfLoad.Accepted
import RiscvSim.Proofs.Isa.Conformance
import RiscvSim.Proofs.Simulator.MappedSpace
import RiscvSim.SimApp.SimApp

/-! The hart and the address space that a program starts with after it was loaded. -/

namespace RiscvSim

open ElfLoader

namespace ElfFile

/-- The memory of a program: zeros for its stack, and its segments over zeros in their pages. -/
def image (file : ElfFile) : ByteStore 39 := fun addr =>
  -- The stack's pages lie below the end of the address space.
  if 0x7fff000 ≤ addr.toNat / 4096 then some 0
  else
    ((loadSegs file).find? fun seg => Touches seg (addr.toNat / 4096)).map fun seg =>
      pageByte file.bytes seg (addr.setWidth 64)

/-- The registers of a program: zeros, and the end of the stack in the stack pointer. -/
def startGprs : GPRFile := GPRFile.ofRegs (GPRFile.new.regs.write 2 0x10000000000)

/-- The interpreter of a program, which may do everything with the bytes of its memory. -/
def flat (file : ElfFile) : Flat 39 where
  hart := { pc := file.eEntry, gprFile := startGprs, csrFile := { satp64 := { mode := .sv39 } } }
  denial _ addr := if (file.image addr).isSome then none else some .mmu64PageFault
  bytes := file.image

end ElfFile

variable {file : ElfFile} {history : List MapCall} {loader later : ElfLoader}
  {memory after : PhysMemory} {addr : BitVec 39}

namespace ElfLoader.Loading

/-- A byte that is seen is behind the mapping of the key of its address. -/
theorem bytes_of_view (loading : Loading history loader memory) {va : VirtAddr} {byte : BitVec 8}
    (low : va.toNat % 2 ^ 39 = addr.toNat) (seen : loader.view memory va = some byte) :
    ∃ call ∈ history, mappedBy 3 history (addr.toNat / 4096) = some call.mapping ∧
      memory.bytes (call.ppn * 4096#64 + addr.setWidth 64 % 4096#64) = some byte := by
  rw [view] at seen
  cases known : loader.mapping (va / 4096#64) with
  | none =>
    rw [known] at seen
    cases seen
  | some ppn =>
    have member := (loading.listed _ _).mp known
    have mapped := loading.built.mappedBy_of_mem (by decide)
      (show modeToLevels .sv39 = .ok 3 from rfl) (by decide) member rfl
    have key : (mapCall (va / 4096#64) ppn).key 3 = addr.toNat / 4096 := by
      rw [MapCall.key, mapCall, toNat_div_page, ← low]
      omega
    have offset : va % 4096#64 = addr.setWidth 64 % 4096#64 := by
      apply BitVec.eq_of_toNat_eq
      rw [BitVec.toNat_umod, BitVec.toNat_umod, BitVec.toNat_setWidth_of_le (by decide), ← low,
        show (4096#64).toNat = 4096 from rfl]
      omega
    rw [key] at mapped
    rw [known, Option.bind_some, offset] at seen
    exact ⟨_, member, mapped, seen⟩

/-- A program that was loaded has its memory behind the mapped keys. -/
theorem image_eq (loading : Loading history loader memory) (wellFormed : WellFormed file)
    (numbers : history.map MapCall.vpn = (imageVpns file).reverse)
    (stack : ∀ va : VirtAddr, va / 4096#64 ∈ stackVpns → loader.view memory va = some 0)
    (placed : ∀ seg ∈ file.phdrs, seg.pType = ptLoad →
      SegmentPlaced file.bytes seg (loader.view memory)) (addr : BitVec 39) :
    match mappedBy 3 history (addr.toNat / 4096) with
    | none => file.image addr = none
    | some mapping => ∃ call ∈ history, call.mapping = mapping ∧ (file.image addr).isSome ∧
        memory.bytes (call.ppn * 4096#64 + addr.setWidth 64 % 4096#64) = file.image addr := by
  have bound := addr.isLt
  -- What is seen under some address with the bits that matter is in memory.
  have found (va : VirtAddr) {byte : BitVec 8} (low : va.toNat % 2 ^ 39 = addr.toNat)
      (seen : loader.view memory va = some byte) (same : file.image addr = some byte) :
      match mappedBy 3 history (addr.toNat / 4096) with
      | none => file.image addr = none
      | some mapping => ∃ call ∈ history, call.mapping = mapping ∧ (file.image addr).isSome ∧
          memory.bytes (call.ppn * 4096#64 + addr.setWidth 64 % 4096#64) = file.image addr := by
    obtain ⟨call, member, mapped, bytes⟩ := loading.bytes_of_view low seen
    rw [mapped]
    exact ⟨call, member, rfl, by rw [same]; rfl, bytes.trans same.symm⟩
  by_cases high : 0x7fff000 ≤ addr.toNat / 4096
  · -- The stack's addresses have a bit more than the space looks at.
    have place : (addr.setWidth 64 + 0x8000000000#64).toNat = addr.toNat + 0x8000000000 := by
      rw [BitVec.toNat_add, BitVec.toNat_setWidth_of_le (by decide),
        show (0x8000000000#64).toNat = 0x8000000000 from rfl]
      omega
    refine found (addr.setWidth 64 + 0x8000000000#64) (by omega) (stack _ ?_) (if_pos high)
    rw [mem_stackVpns, toNat_div_page, place]
    omega
  · have place : (addr.setWidth 64).toNat = addr.toNat := BitVec.toNat_setWidth_of_le (by decide)
    cases first : (loadSegs file).find? fun seg => Touches seg (addr.toNat / 4096) with
    | some seg =>
      -- The page belongs to a segment, which was placed at its own addresses.
      obtain ⟨inFile, isLoad⟩ := mem_loadSegs.mp (List.mem_of_find?_eq_some first)
      have touches : Touches seg (addr.toNat / 4096) := by simpa using List.find?_some first
      refine found (addr.setWidth 64) (by omega) (placed seg inFile isLoad _ ?_) ?_
      · rw [mem_segmentVpns (wellFormed.loadable (List.mem_of_find?_eq_some first)),
          toNat_div_page, place]
        exact touches
      · rw [ElfFile.image, if_neg high, first]
        rfl
    | none =>
      have missing : file.image addr = none := by
        rw [ElfFile.image, if_neg high, first]
        rfl
      cases mapped : mappedBy 3 history (addr.toNat / 4096) with
      | none => exact missing
      | some mapping =>
        -- A mapped key is that of a page of the stack or of a segment.
        obtain ⟨call, member, _, key, _⟩ := mem_of_mappedBy mapped
        have vpn : call.vpn ∈ imageVpns file := by
          rw [← List.mem_reverse, ← numbers]
          exact List.mem_map_of_mem member
        rw [MapCall.key] at key
        rcases List.mem_append.mp vpn with inStack | inFile
        · have bounds := mem_stackVpns.mp inStack
          omega
        · have below := wellFormed.vpn_lt inFile
          obtain ⟨seg, segMember, inSeg⟩ := List.mem_flatMap.mp inFile
          have touches := (mem_segmentVpns (wellFormed.loadable segMember)).mp inSeg
          have none := List.find?_eq_none.mp first seg segMember
          rw [show call.vpn.toNat = addr.toNat / 4096 by omega] at touches
          exact absurd (decide_eq_true (show Touches seg _ from touches)) none

/-- The numbers of the pages that were mapped fit in entries. -/
theorem ppn_lt (loading : Loading history loader memory) :
    ∀ call ∈ history, call.ppn.toNat < 2 ^ 44 := by
  intro call member
  have bounds := loading.numbered call member
  have limit := loading.next_lt
  omega

/-- No physical page is mapped twice. -/
theorem unshared (loading : Loading history loader memory) : Unshared 3 history := by
  intro call member other otherMember _ _ same
  -- Both calls are listed, and each physical page is listed once.
  rw [loading.calls call member] at member
  rw [loading.calls other otherMember, ← same] at otherMember
  rw [MapCall.key, MapCall.key, loading.distinct _ _ _ ((loading.listed _ _).mpr member)
    ((loading.listed _ _).mpr otherMember)]

section program

variable (loading : Loading history loader memory) (wellFormed : WellFormed file)
  (numbers : history.map MapCall.vpn = (imageVpns file).reverse)
  (stack : ∀ va : VirtAddr, va / 4096#64 ∈ stackVpns → loader.view memory va = some 0)
  (placed : ∀ seg ∈ file.phdrs, seg.pType = ptLoad →
    SegmentPlaced file.bytes seg (loader.view memory))

include loading wellFormed numbers stack placed

/-- The address space behind the tables of the loader is the one of the program. -/
theorem flat_eq :
    Plain.flat 39 ⟨file.flat.toCore, memory⟩ = file.flat := by
  have built : Built .sv39 0 defaultTableRegionSize history loader.mapper
    (Plain.physMemory ⟨file.flat.toCore, memory⟩) := loading.built
  refine (Built.flat_eq built (show modeToLevels .sv39 = .ok 3 from rfl) (by decide) ⟨rfl, rfl⟩
    loading.ppn_lt).trans ?_
  have image (addr : BitVec (12 + 9 * 3)) := loading.image_eq wellFormed numbers stack placed addr
  -- The flags of all calls admit everything.
  have admitted {call : MapCall} (member : call ∈ history) (accessType : AccessType) :
      admits {} .user accessType call.mapping.flags = true := by
    rw [admits_mapping, loading.calls call member]
    exact admits_loadFlags {} accessType
  have denial : (Plain.mapped 3 history ⟨file.flat.toCore, memory⟩).denial = file.flat.denial := by
    funext accessType addr
    have here := image addr
    simp only [Plain.mapped, ElfFile.flat]
    cases mapped : mappedBy 3 history (addr.toNat / 4096) with
    | none =>
      rw [mapped] at here
      dsimp only at here ⊢
      rw [here]
      rfl
    | some mapping =>
      rw [mapped] at here
      obtain ⟨call, member, rfl, present, bytes⟩ := here
      -- A byte of the page is there, and so is the page.
      have page : memory.HasPage (call.mapping.ppn * 4096#64) := by
        rw [← bytes, PhysMemory.isSome_bytes] at present
        exact (PhysMemory.hasPage_inPage (loading.ppn_lt call member) _).mp present
      exact (if_pos (admitted member accessType)).trans ((if_pos page).trans (if_pos present).symm)
  have bytes : (Plain.mapped 3 history ⟨file.flat.toCore, memory⟩).bytes = file.flat.bytes := by
    funext addr
    have here := image addr
    simp only [Plain.mapped, ElfFile.flat]
    cases mapped : mappedBy 3 history (addr.toNat / 4096) with
    | none =>
      rw [mapped] at here
      exact here.symm
    | some mapping =>
      rw [mapped] at here
      obtain ⟨call, member, rfl, _, bytes⟩ := here
      have some : AccessType.all.any (admits {} .user · call.mapping.flags) = true :=
        List.any_eq_true.mpr ⟨.read, AccessType.mem_all .read, admitted member .read⟩
      exact (if_pos some).trans bytes
  exact congrArg₂ (Flat.mk file.flat.toCore) denial bytes

end program

end ElfLoader.Loading

end RiscvSim

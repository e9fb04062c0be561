import RiscvSim.Proofs.Memory.Walk
import Mathlib.Tactic.IntervalCases

/-! What translation makes of the upper bits of an address and of the software bits of entries. -/

namespace RiscvSim

open SvPaging

/-- Addresses that agree in the translated bits are walked alike. -/
theorem walk_of_sameLow (memory : PhysMemory) {levels : Nat} {va other : VirtAddr}
    (same : SameLow levels va other) (shallow : levels ≤ 5) {i : Nat} (inside : i < levels)
    (tablePpn : PhysAddr) : walk memory va i tablePpn = walk memory other i tablePpn := by
  -- By induction on the level, where both select the same entry of the same table.
  have selected {j : Nat} (below : j < levels) (table : PhysAddr) :
      pteAddr table va j = pteAddr table other j := by
    rw [pteAddr_eq_entryAddr _ _ (by omega), pteAddr_eq_entryAddr _ _ (by omega), entryAddr,
      entryAddr, same.vpn below]
  induction i generalizing tablePpn with
  | zero => rw [walk, walk, selected inside]
  | succ i ih =>
    have next := ih (by omega)
    rw [walk, walk, selected inside]
    simp only [next]

/-- Addresses that agree in the translated bits are translated alike. -/
theorem translate_of_sameLow {memory : PhysMemory} {satp64 : SATP64} {levels : Nat}
    {va other : VirtAddr} (translating : modeToLevels satp64.mode = .ok levels)
    (same : SameLow levels va other) (mstatus64 : MSTATUS64) (privLevel : PrivLevel)
    (accessType : AccessType) :
    translate memory mstatus64 satp64 privLevel accessType va =
      translate memory mstatus64 satp64 privLevel accessType other := by
  obtain ⟨positive, limit⟩ := modeToLevels_bounds translating
  have paged : satp64.mode ≠ .bare := by
    intro bare
    rw [bare] at translating
    cases translating
  have walked := walk_of_sameLow memory same limit
    (show levels - 1 < levels by omega) satp64.ppn
  -- Only the walk and the offset of the leaf read the address.
  simp only [translate, if_neg paged, translating, walked]
  cases found : walk memory other (levels - 1) satp64.ppn with
  | fault status => rfl
  | leaf i pte =>
    -- The leaf adds the same offset to the same page.
    have inside := walk_leaf_le found
    have target : calcPhysAddr pte va i = calcPhysAddr pte other i := by
      apply BitVec.eq_of_toNat_eq
      rw [toNat_calcPhysAddr _ _ (by omega), toNat_calcPhysAddr _ _ (by omega),
        same.target (by omega)]
    simp only [target]

/-- A walk that meets an entry with a software bit ends there in a page fault. -/
theorem walk_of_software {memory : PhysMemory} {va : VirtAddr} {i : Nat} {tablePpn : PhysAddr}
    (inside : i ≤ 4)
    (meets : Meets memory.entry va (fun pte => ¬pte.SoftwareClear) i tablePpn.toNat) :
    walk memory va i tablePpn = .fault .mmu64PageFault := by
  obtain ⟨l, last, pte, reaches, met, dirty⟩ := meets
  -- A software bit makes an entry malformed.
  have invalid : ¬Entry.Valid pte := fun valid => dirty valid.softwareClear
  have stops : Stops memory.entry va l last := by
    intro link found valid _
    cases met.symm.trans found
    exact absurd valid invalid
  -- Any other end of the walk is another end of the same chain.
  have spec := walk_spec memory va inside tablePpn
  cases ended : walk memory va i tablePpn with
  | fault status =>
    rw [ended] at spec
    cases spec with
    | missing otherReaches none =>
      obtain ⟨rfl, rfl⟩ := reaches.unique otherReaches stops (stops_of_none none)
      cases met.symm.trans none
    | useless _ _ _ _ => rfl
  | leaf j other =>
    rw [ended] at spec
    cases spec with
    | leaf otherReaches found valid leaf =>
      obtain ⟨rfl, rfl⟩ := reaches.unique otherReaches stops (stops_of_leaf found leaf)
      cases met.symm.trans found
      exact absurd valid invalid

/-- Entries that differ in software bits alone are read alike when these bits are clear. -/
theorem read_of_sameTables {memory other : PhysMemory} (va : VirtAddr) {i : Nat}
    {tablePpn : PhysAddr} (inside : i ≤ 4) (same : SameTables memory.entry other.entry)
    (clean : ¬Meets memory.entry va (fun pte => ¬pte.SoftwareClear) i tablePpn.toNat)
    (otherClean : ¬Meets other.entry va (fun pte => ¬pte.SoftwareClear) i tablePpn.toNat) :
    entryAt other.entry va i tablePpn.toNat = entryAt memory.entry va i tablePpn.toNat ∧
      (other.read (n := pteBytes) (pteAddr tablePpn va i) 0).status =
        (memory.read (n := pteBytes) (pteAddr tablePpn va i) 0).status ∧
      (other.read (n := pteBytes) (pteAddr tablePpn va i) 0).dst =
        (memory.read (n := pteBytes) (pteAddr tablePpn va i) 0).dst := by
  have place : entryAddr tablePpn.toNat va i % 8 = 0 := by
    rw [entryAddr]
    omega
  rcases same _ place with ⟨none, otherNone⟩ | ⟨pte, found, met, otherMet, agree⟩
  · -- Neither memory has a page there.
    rcases read_entryAt memory tablePpn va inside with ⟨_, some, _⟩ | ⟨_, status⟩
    · cases none.symm.trans some
    · rcases read_entryAt other tablePpn va inside with ⟨_, some, _⟩ | ⟨_, otherStatus⟩
      · cases otherNone.symm.trans some
      · refine ⟨otherNone.trans none.symm, otherStatus.trans status.symm, ?_⟩
        rw [PhysMemory.read_failed (by rw [otherStatus]; decide),
          PhysMemory.read_failed (by rw [status]; decide)]
  · -- Both entries are met, so their software bits are clear.
    have clear : pte.SoftwareClear :=
      by_contra fun dirty => clean ⟨i, _, pte, .here _ _, met, dirty⟩
    have otherClear : found.SoftwareClear :=
      by_contra fun dirty => otherClean ⟨i, _, found, .here _ _, otherMet, dirty⟩
    obtain rfl := agree.eq clear otherClear
    rcases read_entryAt memory tablePpn va inside with ⟨_, some, status, dst⟩ | ⟨none, _⟩
    · cases met.symm.trans some
      rcases read_entryAt other tablePpn va inside with ⟨_, some, otherStatus, otherDst⟩ | ⟨none, _⟩
      · cases otherMet.symm.trans some
        exact ⟨otherMet.trans met.symm, otherStatus.trans status.symm, otherDst.trans dst.symm⟩
      · cases otherMet.symm.trans none
    · cases met.symm.trans none

/-- Tables that differ in software bits alone are walked alike unless such a bit is met. -/
theorem walk_of_sameTables {memory other : PhysMemory} {va : VirtAddr} {i : Nat}
    {tablePpn : PhysAddr} (inside : i ≤ 4) (same : SameTables memory.entry other.entry)
    (clean : ¬Meets memory.entry va (fun pte => ¬pte.SoftwareClear) i tablePpn.toNat)
    (otherClean : ¬Meets other.entry va (fun pte => ¬pte.SoftwareClear) i tablePpn.toNat) :
    walk other va i tablePpn = walk memory va i tablePpn := by
  -- By induction on the level: the entries are the same, and so are the tables below.
  induction i generalizing tablePpn with
  | zero =>
    -- Only the entry on this level is read.
    obtain ⟨_, status, dst⟩ := read_of_sameTables va inside same clean otherClean
    rw [walk, walk, status, dst]
  | succ i ih =>
    obtain ⟨entry, status, dst⟩ := read_of_sameTables va inside same clean otherClean
    rw [walk, walk, status, dst]
    rcases read_entryAt memory tablePpn va inside with ⟨pte, found, ok, value⟩ | ⟨_, failed⟩
    · rw [ok, value, if_neg (not_not.mpr rfl), if_neg (not_not.mpr rfl)]
      -- A link goes down to the same table in both memories.
      by_cases valid : Entry.Valid pte
      · by_cases leaf : Entry.Leaf pte
        · simp only [(pteIsLeaf_iff pte).mpr leaf, if_true]
        · have below := @ih (ptePpn pte) (by omega)
          rw [toNat_ptePpn] at below
          simp only [below (fun meets => clean (meets.down found valid leaf))
            -- The hypotheses carry over, since what is met below is met from here.
            (fun meets => otherClean (meets.down (entry.trans found) valid leaf))]
      · simp only [(pteMalformed_iff pte).mpr valid, if_true]
    · -- Both walks end where the entry is missing.
      rw [failed, if_pos (by decide), if_pos (by decide)]

/-- How translation treats the upper bits of addresses and the software bits of entries. -/
structure PagingRules (mstatus64 : MSTATUS64) (satp64 : SATP64) (privLevel : PrivLevel)
    (accessType : AccessType) (levels : Nat) : Prop where
  /-- The bits above those that are translated are ignored. -/
  low : ∀ memory va other, SameLow levels va other →
    translate memory mstatus64 satp64 privLevel accessType va =
      translate memory mstatus64 satp64 privLevel accessType other
  /-- An entry with a software bit is refused. -/
  software : ∀ memory va,
    Meets memory.entry va (fun pte => ¬pte.SoftwareClear) (levels - 1) satp64.ppn.toNat →
    translate memory mstatus64 satp64 privLevel accessType va = .ok ⟨.mmu64PageFault, 0⟩
  /-- The software bits of entries that are not met are ignored. -/
  others : ∀ memory other va, SameTables memory.entry other.entry →
    ¬Meets memory.entry va (fun pte => ¬pte.SoftwareClear) (levels - 1) satp64.ppn.toNat →
    ¬Meets other.entry va (fun pte => ¬pte.SoftwareClear) (levels - 1) satp64.ppn.toNat →
    translate other mstatus64 satp64 privLevel accessType va =
      translate memory mstatus64 satp64 privLevel accessType va

/-- Translation ignores the upper bits of addresses and refuses entries with software bits. -/
theorem pagingRules (mstatus64 : MSTATUS64) {satp64 : SATP64} (privLevel : PrivLevel)
    (accessType : AccessType) {levels : Nat}
    (translating : modeToLevels satp64.mode = .ok levels) :
    PagingRules mstatus64 satp64 privLevel accessType levels := by
  obtain ⟨positive, limit⟩ := modeToLevels_bounds translating
  have paged : satp64.mode ≠ .bare := by
    intro bare
    rw [bare] at translating
    cases translating
  refine ⟨?_, ?_, ?_⟩
  · intro memory va other same
    exact translate_of_sameLow translating same mstatus64 privLevel accessType
  · intro memory va meets
    exact translate_of_fault paged translating (walk_of_software (by omega) meets) mstatus64
      privLevel accessType
  · intro memory other va same clean otherClean
    simp only [translate, if_neg paged, translating,
      walk_of_sameTables (show levels - 1 ≤ 4 by omega) same clean otherClean]

/-- With three levels, addresses are told apart by thirty-nine bits alone. -/
theorem pagingRules_sv39 :
    translate (PhysMemory.holdingEntry 0xdf) {} ⟨.sv39, 0, 0⟩ .user .read 0x10000000123 =
      translate (PhysMemory.holdingEntry 0xdf) {} ⟨.sv39, 0, 0⟩ .user .read 0x123 :=
  (pagingRules {} .user .read rfl).low _ _ _ (by decide)

/-- A memory that holds an entry holds it at address zero, and zeros elsewhere. -/
theorem bytes_holdingEntry (pte : PTE) :
    (PhysMemory.holdingEntry pte).bytes =
        PhysMemory.onePage.bytes.put (n := pteBytes) 0 pte ∧
      (PhysMemory.holdingEntry pte).ram = PhysMemory.onePage.ram := by
  -- The entry fits in the page that was added.
  have status : (PhysMemory.onePage.write (n := pteBytes) 0 pte).1.status = .ok := by
    rw [PhysMemory.write_status]
    decide +kernel
  obtain ⟨bytes, ram, _⟩ := PhysMemory.write_ok status
  exact ⟨bytes, ram⟩

/-- Memories that hold entries with the same other bits have the same tables. -/
theorem sameTables_holdingEntry {pte other : PTE} (same : Entry.SameButSoftware pte other) :
    SameTables (PhysMemory.holdingEntry pte).entry (PhysMemory.holdingEntry other).entry := by
  intro addr place
  obtain ⟨bytes, ram⟩ := bytes_holdingEntry pte
  obtain ⟨otherBytes, otherRam⟩ := bytes_holdingEntry other
  have page {memory : PhysMemory} (ram : memory.ram = PhysMemory.onePage.ram) :
      memory.HasPage (BitVec.ofNat 64 addr) ↔
        PhysMemory.onePage.HasPage (BitVec.ofNat 64 addr) := by
    unfold PhysMemory.HasPage
    rw [ram]
  rw [PhysMemory.entry, PhysMemory.entry]
  by_cases present : PhysMemory.onePage.HasPage (BitVec.ofNat 64 addr)
  · rw [if_pos ((page ram).mpr present), if_pos ((page otherRam).mpr present), bytes, otherBytes]
    refine .inr ⟨_, _, rfl, rfl, ?_⟩
    -- The first eight bytes hold the entry, and all later ones are zero in both.
    by_cases first : BitVec.ofNat 64 addr = 0
    · have whole : PhysMemory.onePage.bytes.Present 0 pteBytes := by
        intro i inside
        rw [PhysMemory.isSome_bytes]
        interval_cases i <;> decide +kernel
      rw [first, ByteStore.get_put_same _ _ (by decide) whole,
        ByteStore.get_put_same _ _ (by decide) whole]
      exact same
    · -- Another entry shares no byte with the first one.
      have apart : ∀ byte, ByteStore.InRun (BitVec.ofNat 64 addr) pteBytes byte →
          ¬ByteStore.InRun 0 pteBytes byte := by
        intro byte inside low
        have positive : (BitVec.ofNat 64 addr).toNat ≠ 0 := fun zero =>
          first (BitVec.eq_of_toNat_eq zero)
        rw [ByteStore.InRun, BitVec.toNat_sub, pteBytes] at inside low
        rw [BitVec.toNat_ofNat] at inside positive
        have bound := byte.isLt
        rw [show (0 : BitVec 64).toNat = 0 from rfl] at low
        omega
      rw [ByteStore.get_put_disjoint _ _ (by decide) apart,
        ByteStore.get_put_disjoint _ _ (by decide) apart]
      exact fun _ _ _ => rfl
  · rw [if_neg (mt (page ram).mp present), if_neg (mt (page otherRam).mp present)]
    exact .inl ⟨rfl, rfl⟩

/-- An address that is not canonical is translated, and a software bit makes a page fault. -/
theorem not_sv_rules :
    (¬∀ memory va, ¬Canonical 3 va →
      translate memory {} ⟨.sv39, 0, 0⟩ .user .read va = .ok ⟨.mmu64PageFault, 0⟩) ∧
    ¬∀ memory other va, SameTables memory.entry other.entry →
      translate memory {} ⟨.sv39, 0, 0⟩ .user .read va =
        translate other {} ⟨.sv39, 0, 0⟩ .user .read va := by
  constructor
  · -- Bit forty is set, and the bits below it are clear.
    intro faults
    have crooked : ¬Canonical 3 (2 ^ 40) := by
      intro canonical
      have bit := canonical 40 (by decide) (by decide)
      revert bit
      decide
    have fault := faults (PhysMemory.holdingEntry 0xdf) (2 ^ 40) crooked
    revert fault
    decide +kernel
  · intro ignored
    have agree : Entry.SameButSoftware 0xdf 0x1df := by
      intro i first _
      -- The two entries differ by the power of the eighth bit.
      have power : (0x1df : Entry) = 0xdf ^^^ BitVec.twoPow 64 8 := by decide
      rw [power, BitVec.getLsbD_xor, BitVec.getLsbD_twoPow]
      simp [Ne.symm first]
    have fault := ignored _ _ 0 (sameTables_holdingEntry agree)
    revert fault
    decide +kernel

end RiscvSim

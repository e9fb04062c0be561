import RiscvSim.Lib.SvPaging
import RiscvSim.Proofs.Memory.Mmu64
import RiscvSim.Proofs.Memory.Pte

/-! The page table walk follows the chain of entries that the address selects. -/

namespace RiscvSim

open SvPaging
open PhysMemory (Fits)

/-- The entry at an address of physical memory, when its page is in RAM. -/
def PhysMemory.entry (memory : PhysMemory) (addr : Nat) : Option Entry :=
  if memory.HasPage (BitVec.ofNat 64 addr) then
    some (memory.bytes.get pteBytes (BitVec.ofNat 64 addr))
  else none

section fields

/-- Masking with a power of two tests its bit. -/
theorem and_twoPow_ne_zero {w : Nat} (value : BitVec w) {i : Nat} (inside : i < w) :
    value &&& BitVec.twoPow w i ≠ 0 ↔ value.getLsbD i = true := by
  rw [BitVec.and_twoPow]
  cases bit : value.getLsbD i with
  | false => simp
  | true =>
    -- The power itself is not zero.
    have power : BitVec.twoPow w i ≠ 0#w := by
      intro zero
      have set := congrArg (fun word => word.getLsbD i) zero
      simp [inside] at set
    simpa using power

/-- A flag is the bit of the entry at its place. -/
theorem flag_ofPTE (pte : PTE) {i : Nat} (inside : i < 8) :
    (PTEFlags.ofPTE pte).raw &&& BitVec.twoPow 8 i ≠ 0 ↔ pte.getLsbD i = true := by
  -- The flags are the low eight bits of the entry.
  rw [and_twoPow_ne_zero _ inside, PTEFlags.ofPTE, BitVec.getLsbD_setWidth]
  simp [inside]

/-- An entry is valid when its bit is set. -/
theorem v_ofPTE (pte : PTE) : (PTEFlags.ofPTE pte).v = true ↔ pte.getLsbD 0 = true := by
  rw [PTEFlags.v, decide_eq_true_iff]
  exact flag_ofPTE pte (by decide)

/-- An entry is readable when its bit is set. -/
theorem r_ofPTE (pte : PTE) : (PTEFlags.ofPTE pte).r = true ↔ pte.getLsbD 1 = true := by
  rw [PTEFlags.r, decide_eq_true_iff]
  exact flag_ofPTE pte (by decide)

/-- An entry is writable when its bit is set. -/
theorem w_ofPTE (pte : PTE) : (PTEFlags.ofPTE pte).w = true ↔ pte.getLsbD 2 = true := by
  rw [PTEFlags.w, decide_eq_true_iff]
  exact flag_ofPTE pte (by decide)

/-- An entry is executable when its bit is set. -/
theorem x_ofPTE (pte : PTE) : (PTEFlags.ofPTE pte).x = true ↔ pte.getLsbD 3 = true := by
  rw [PTEFlags.x, decide_eq_true_iff]
  exact flag_ofPTE pte (by decide)

/-- An entry is refused by the walk exactly when it cannot be used. -/
theorem pteMalformed_iff (pte : PTE) : pteMalformed pte = true ↔ ¬Entry.Valid pte := by
  have reserved : pte &&& pteReservedMask = 0 ↔
      ∀ i, (i = 8 ∨ i = 9 ∨ 54 ≤ i ∧ i < 64) → pte.getLsbD i = false := by
    constructor
    · -- A clear masked word has no set bit where the mask has one.
      intro zero i place
      have bit := congrArg (fun word => word.getLsbD i) zero
      simpa [getLsbD_pteReservedMask, or_assoc, place] using bit
    · intro clear
      apply BitVec.eq_of_getLsbD_eq
      -- Conversely, every bit of the mask is one that the condition names.
      intro i inside
      rw [BitVec.getLsbD_and, getLsbD_pteReservedMask]
      by_cases place : (i = 8 ∨ i = 9) ∨ 54 ≤ i ∧ i < 64
      · simp [clear i (or_assoc.mp place)]
      · simp [place]
  -- The three tests are the negations of the three conditions.
  rw [Entry.Valid, ← v_ofPTE, ← r_ofPTE, ← w_ofPTE, ← reserved, pteMalformed]
  cases (PTEFlags.ofPTE pte).v <;> cases (PTEFlags.ofPTE pte).r <;>
    cases (PTEFlags.ofPTE pte).w <;> simp

/-- An entry is taken for a leaf exactly when it is one. -/
theorem pteIsLeaf_iff (pte : PTE) : pteIsLeaf pte = true ↔ Entry.Leaf pte := by
  rw [Entry.Leaf, ← r_ofPTE, ← x_ofPTE, pteIsLeaf, Bool.or_eq_true]

/-- The page number field of an entry is its page number. -/
theorem toNat_ptePpn (pte : PTE) : (ptePpn pte).toNat = Entry.number pte :=
  toNat_getBitField pte (by decide) (by decide) (by decide)

/-- The page number field of an address at a level is its page number there. -/
theorem toNat_getVPN_vpn (va : VirtAddr) {i : Nat} (inside : i ≤ 4) :
    (getVPN va i).toNat = vpn va i := by
  have lo : pageBitSize + i * vpnBitStep = 12 + 9 * i := by
    simp only [pageBitSize, vpnBitStep]
    omega
  rw [getVPN, lo, toNat_getBitField va (by decide) (by simp [vpnBitStep]) (by
    simp only [vpnBitStep]
    omega), vpn]
  congr 2
  simp only [vpnBitStep]
  omega

end fields

section entries

variable {i : Nat}

/-- The address of an entry is that of the table plus eight bytes for each earlier entry. -/
theorem pteAddr_eq_entryAddr (tablePpn : PhysAddr) (va : VirtAddr) (inside : i ≤ 4) :
    pteAddr tablePpn va i = BitVec.ofNat 64 (entryAddr tablePpn.toNat va i) := by
  apply BitVec.eq_of_toNat_eq
  have limit : vpn va i < 2 ^ 9 := Nat.mod_lt _ (by decide)
  have field := toNat_getVPN_vpn va inside
  -- Both sums wrap around at the same place.
  rw [pteAddr, BitVec.toNat_add, BitVec.toNat_mul, BitVec.toNat_mul, field, entryAddr]
  simp only [BitVec.toNat_ofNat, pageSize, pageBitSize, pteBytes]
  omega

/-- An entry does not cross its page. -/
theorem fits_pteAddr (tablePpn : PhysAddr) (va : VirtAddr) (inside : i ≤ 4) :
    Fits (pteAddr tablePpn va i) pteBytes := by
  have limit : vpn va i < 2 ^ 9 := Nat.mod_lt _ (by decide)
  -- A page has room for the entries of a table.
  rw [Fits, pteAddr_eq_entryAddr tablePpn va inside, BitVec.toNat_ofNat, entryAddr, pteBytes]
  omega

/-- Reading an entry gives it, or an access fault when it is not in RAM. -/
theorem read_entryAt (memory : PhysMemory) (tablePpn : PhysAddr) (va : VirtAddr) (inside : i ≤ 4) :
    (∃ pte, entryAt memory.entry va i tablePpn.toNat = some pte ∧
      (memory.read (n := pteBytes) (pteAddr tablePpn va i) 0).status = .ok ∧
      (memory.read (n := pteBytes) (pteAddr tablePpn va i) 0).dst = pte) ∨
    entryAt memory.entry va i tablePpn.toNat = none ∧
      (memory.read (n := pteBytes) (pteAddr tablePpn va i) 0).status = .physMemAccessFault := by
  have status := PhysMemory.read_status (n := pteBytes) memory (pteAddr tablePpn va i) 0
  have addr := pteAddr_eq_entryAddr tablePpn va inside
  rw [PhysMemory.accessStatus, if_neg (not_not.mpr (fits_pteAddr tablePpn va inside))] at status
  by_cases present : memory.HasPage (pteAddr tablePpn va i)
  · -- The page of the entry is in RAM, and the entry fits in it.
    rw [if_pos present] at status
    refine .inl ⟨memory.bytes.get pteBytes (pteAddr tablePpn va i), ?_, status,
      (PhysMemory.read_ok status).1⟩
    rw [entryAt, PhysMemory.entry, ← addr, if_pos present]
  · rw [if_neg present] at status
    refine .inr ⟨?_, status⟩
    rw [entryAt, PhysMemory.entry, ← addr, if_neg present]

end entries

/-- How a walk ends, by the chain of entries that it follows. -/
inductive WalkSpec (memory : Nat → Option Entry) (va : VirtAddr) (i table : Nat) :
    WalkResult → Prop
  | missing {l last : Nat} : Reaches memory va i table l last →
    entryAt memory va l last = none → WalkSpec memory va i table (.fault .physMemAccessFault)
  | useless {l last : Nat} {pte : Entry} : Reaches memory va i table l last →
    entryAt memory va l last = some pte → Stops memory va l last → ¬(pte.Valid ∧ pte.Leaf) →
    WalkSpec memory va i table (.fault .mmu64PageFault)
  | leaf {l last : Nat} {pte : Entry} : Reaches memory va i table l last →
    entryAt memory va l last = some pte → pte.Valid → pte.Leaf →
    WalkSpec memory va i table (.leaf l pte)

/-- A link leads to the end of the walk from the table below. -/
theorem WalkSpec.down {memory : Nat → Option Entry} {va : VirtAddr} {i table : Nat} {link : Entry}
    {result : WalkResult} (found : entryAt memory va (i + 1) table = some link)
    (valid : link.Valid) (linked : ¬link.Leaf) (spec : WalkSpec memory va i link.number result) :
    WalkSpec memory va (i + 1) table result := by
  -- Whatever ends the walk below also ends it here, one link later.
  cases spec with
  | missing reaches none => exact .missing (reaches.down found valid linked) none
  | useless reaches last stops useless =>
    exact .useless (reaches.down found valid linked) last stops useless
  | leaf reaches last valid' leaf => exact .leaf (reaches.down found valid linked) last valid' leaf

/-- A walk ends as the chain of entries prescribes. -/
theorem walk_spec (memory : PhysMemory) (va : VirtAddr) {i : Nat} (inside : i ≤ 4)
    (tablePpn : PhysAddr) :
    WalkSpec memory.entry va i tablePpn.toNat (walk memory va i tablePpn) := by
  -- By induction on the level, which each link goes down by one.
  induction i generalizing tablePpn with
  | zero =>
    rw [walk]
    rcases read_entryAt memory tablePpn va inside with
      ⟨pte, found, status, dst⟩ | ⟨none, status⟩
    · -- The entry is there, so its flags decide.
      rw [status, dst, if_neg (not_not.mpr rfl)]
      by_cases valid : Entry.Valid pte
      · rw [if_neg (mt (pteMalformed_iff pte).mp (not_not.mpr valid))]
        by_cases leaf : Entry.Leaf pte
        · rw [if_pos ((pteIsLeaf_iff pte).mpr leaf)]
          exact .leaf (.here _ _) found valid leaf
        · -- A link on the lowest level leads nowhere.
          rw [if_neg (mt (pteIsLeaf_iff pte).mp leaf)]
          exact .useless (.here _ _) found (fun _ _ _ _ => rfl) fun both => leaf both.2
      · rw [if_pos ((pteMalformed_iff pte).mpr valid)]
        exact .useless (.here _ _) found (fun _ _ _ _ => rfl) fun both => valid both.1
    · rw [status, if_pos (by decide)]
      exact .missing (.here _ _) none
  | succ i ih =>
    rw [walk]
    rcases read_entryAt memory tablePpn va inside with
      ⟨pte, found, status, dst⟩ | ⟨none, status⟩
    · rw [status, dst, if_neg (not_not.mpr rfl)]
      by_cases valid : Entry.Valid pte
      · rw [if_neg (mt (pteMalformed_iff pte).mp (not_not.mpr valid))]
        by_cases leaf : Entry.Leaf pte
        · rw [if_pos ((pteIsLeaf_iff pte).mpr leaf)]
          exact .leaf (.here _ _) found valid leaf
        · rw [if_neg (mt (pteIsLeaf_iff pte).mp leaf)]
          -- The walk goes on in the table that the link names.
          have below := ih (by omega) (ptePpn pte)
          rw [toNat_ptePpn] at below
          exact below.down found valid leaf
      · rw [if_pos ((pteMalformed_iff pte).mpr valid)]
        refine .useless (.here _ _) found (fun link other usable _ => ?_) fun both => valid both.1
        cases found.symm.trans other
        exact absurd usable valid
    · -- The table is not in RAM.
      rw [status, if_pos (by decide)]
      exact .missing (.here _ _) none

/-- A walk that fails met an entry outside RAM or one that it cannot use. -/
theorem status_of_walk {memory : PhysMemory} {va : VirtAddr} {i : Nat} {tablePpn : PhysAddr}
    {status : SimStatus} (inside : i ≤ 4) (failed : walk memory va i tablePpn = .fault status) :
    status = .physMemAccessFault ∨ status = .mmu64PageFault := by
  have spec := walk_spec memory va inside tablePpn
  rw [failed] at spec
  cases spec with
  | missing => exact .inl rfl
  | useless => exact .inr rfl

/-- A walk reads at most one entry for each level. -/
theorem length_walkEntries (memory : PhysMemory) (va : VirtAddr) (i : Nat) (tablePpn : PhysAddr) :
    (walkEntries memory va i tablePpn).length ≤ i + 1 := by
  induction i generalizing tablePpn with
  | zero =>
    rw [walkEntries]
    -- There is no level below the last one.
    split
    · simp
    · split
      · simp
      · split <;> simp
  | succ i ih =>
    rw [walkEntries]
    split
    · simp
    · split
      · simp
      · split
        · simp
        · -- The entry of this level comes on top of those below.
          exact Nat.succ_le_succ (ih _)

section translation

variable {pte : PTE} {va : VirtAddr} {i : Nat}

/-- The physical address of a leaf is its target. -/
theorem toNat_calcPhysAddr (pte : PTE) (va : VirtAddr) (inside : i ≤ 4) :
    (calcPhysAddr pte va i).toNat = Entry.target pte i va := by
  -- The low bits of the address are cut out whole.
  have offset : (getBitField (12 + i * 9 - 1) 0 va).toNat = va.toNat % 2 ^ (12 + 9 * i) := by
    rw [toNat_getBitField va (by decide) (by omega) (by omega), Nat.pow_zero, Nat.div_one,
      show 12 + i * 9 - 1 - 0 + 1 = 12 + 9 * i by omega]
  -- The page number loses the bits that belong to the offset.
  have field : (getBitField ptePpnHi (ptePpnLo + i * 9) pte).toNat =
      Entry.number pte / 2 ^ (9 * i) := by
    have top : ptePpnHi - (ptePpnLo + i * 9) + 1 = 44 - 9 * i := by
      simp only [ptePpnHi, ptePpnLo]
      omega
    rw [toNat_getBitField pte (by decide) (by simp only [ptePpnHi, ptePpnLo]; omega) (by decide),
      top, Entry.number, Bits.mod_pow_div_pow _ (by omega), Nat.div_div_eq_div_mul, ← Nat.pow_add]
    congr 3
    simp only [ptePpnLo]
    omega
  -- The number and the offset together have fifty-six bits, so nothing wraps.
  have whole : Entry.target pte i va < 2 ^ 64 := by
    have quotient : Entry.number pte / 2 ^ (9 * i) < 2 ^ (44 - 9 * i) := by
      rw [Nat.div_lt_iff_lt_mul (Nat.two_pow_pos _), ← Nat.pow_add, Nat.sub_add_cancel (by omega)]
      exact Entry.number_lt pte
    have low : va.toNat % 2 ^ (12 + 9 * i) < 2 ^ (12 + 9 * i) := Nat.mod_lt _ (Nat.two_pow_pos _)
    calc Entry.target pte i va
      _ < Entry.number pte / 2 ^ (9 * i) * 2 ^ (12 + 9 * i) + 2 ^ (12 + 9 * i) :=
        Nat.add_lt_add_left low _
      _ = (Entry.number pte / 2 ^ (9 * i) + 1) * 2 ^ (12 + 9 * i) := (Nat.succ_mul _ _).symm
      _ ≤ 2 ^ (44 - 9 * i) * 2 ^ (12 + 9 * i) := Nat.mul_le_mul_right _ quotient
      _ = 2 ^ 56 := by rw [← Nat.pow_add, show 44 - 9 * i + (12 + 9 * i) = 56 by omega]
      _ < 2 ^ 64 := by decide
  have shift : 12 + i * 9 = 12 + 9 * i := by omega
  rw [Entry.target] at whole ⊢
  simp only [calcPhysAddr, pageBitSize, ppnBitStep, BitVec.toNat_add, BitVec.toNat_shiftLeft,
    Nat.shiftLeft_eq, offset, field]
  rw [shift, Nat.mod_eq_of_lt (Nat.lt_of_le_of_lt (Nat.le_add_right _ _) whole), Nat.add_comm,
    Nat.mod_eq_of_lt whole]

/-- The superpage check passes exactly for aligned leaves. -/
theorem superpage_iff (pte : PTE) (inside : i ≤ 4) :
    (0 < i ∧ getBitField (ptePpnLo + ppnBitStep * i - 1) ptePpnLo pte ≠ 0) ↔
      ¬Entry.Aligned pte i := by
  rw [Entry.Aligned, Entry.number]
  by_cases first : i = 0
  · -- Pages of the last level start anywhere.
    subst first
    simp [Nat.mod_one]
  · have width : ptePpnLo + ppnBitStep * i - 1 - ptePpnLo + 1 = 9 * i := by
      simp only [ptePpnLo, ppnBitStep]
      omega
    have field : (getBitField (ptePpnLo + ppnBitStep * i - 1) ptePpnLo pte).toNat =
        pte.toNat / 2 ^ 10 % 2 ^ (9 * i) := by
      rw [toNat_getBitField pte (by decide) (by simp only [ptePpnLo, ppnBitStep]; omega)
        (by simp only [ptePpnLo, ppnBitStep]; omega), width]
      rfl
    -- A field of zero is a number without a remainder.
    rw [Nat.mod_mod_of_dvd _ (Nat.pow_dvd_pow 2 (by omega)), ← field]
    refine ⟨fun crooked zero => crooked.2 (BitVec.eq_of_toNat_eq zero), fun crooked => ?_⟩
    exact ⟨by omega, fun zero => crooked (congrArg BitVec.toNat zero)⟩

end translation

/-- The flags of a leaf allow an access. -/
def LeafAllows (mstatus64 : MSTATUS64) (privLevel : PrivLevel) (accessType : AccessType)
    (pte : Entry) : Prop :=
  checkLeafFlags privLevel accessType (PTEFlags.ofPTE pte) (mstatus64.mxr ≠ 0)
    (mstatus64.sum ≠ 0) = true

/-- Every leaf that an address is translated with was marked as accessed and dirty. -/
def LeavesMarked (memory : PhysMemory) (mstatus64 : MSTATUS64) (satp64 : SATP64)
    (privLevel : PrivLevel) (accessType : AccessType) (levels : Nat) (va : VirtAddr) : Prop :=
  ∀ l pte, FindsLeaf memory.entry va levels satp64.ppn.toNat l pte →
    LeafAllows mstatus64 privLevel accessType pte → Entry.Aligned pte l →
    (PTEFlags.ofPTE pte).a = true ∧ (PTEFlags.ofPTE pte).d = true

/-- A translation gives what the chain of entries in memory prescribes. -/
structure TranslatesByChain (memory : PhysMemory) (mstatus64 : MSTATUS64) (satp64 : SATP64)
    (privLevel : PrivLevel) (accessType : AccessType) (levels : Nat) (va : VirtAddr) : Prop where
  /-- At most one entry is read for each level. -/
  reads : (tableEntries memory satp64 va).length ≤ levels
  /-- No assertion fails. -/
  returns : ∃ result, translate memory mstatus64 satp64 privLevel accessType va = .ok result
  ok : ∀ pa, translate memory mstatus64 satp64 privLevel accessType va = .ok ⟨.ok, pa⟩ ↔
    Translates memory.entry va (LeafAllows mstatus64 privLevel accessType) levels
      satp64.ppn.toNat pa.toNat
  accessFault : translate memory mstatus64 satp64 privLevel accessType va =
    .ok ⟨.physMemAccessFault, 0⟩ ↔ Missing memory.entry va levels satp64.ppn.toNat
  pageFault : translate memory mstatus64 satp64 privLevel accessType va =
    .ok ⟨.mmu64PageFault, 0⟩ ↔ ¬Missing memory.entry va levels satp64.ppn.toNat ∧
      ¬∃ pa, Translates memory.entry va (LeafAllows mstatus64 privLevel accessType) levels
        satp64.ppn.toNat pa

/-- A translation succeeds, meets an entry outside RAM, or gives a page fault. -/
theorem status_of_translate {memory : PhysMemory} {mstatus64 : MSTATUS64} {satp64 : SATP64}
    {privLevel : PrivLevel} {accessType : AccessType} {va : VirtAddr} {result : TranslateResult}
    (done : translate memory mstatus64 satp64 privLevel accessType va = .ok result) :
    result.status = .ok ∨ result.status = .physMemAccessFault ∨
      result.status = .mmu64PageFault := by
  unfold translate at done
  split at done
  · -- Without translation every address is its own.
    cases done
    exact .inl rfl
  · split at done
    · cases done
    · rename_i levels translating
      have bounds := modeToLevels_bounds translating
      split at done
      · rename_i status failed
        cases done
        exact .inr (status_of_walk (by omega) failed)
      · dsimp only at done
        -- A leaf that is not used is a page fault.
        split at done
        · cases done
          exact .inr (.inr rfl)
        · split at done
          · cases done
            exact .inr (.inr rfl)
          · split at done <;> cases done
            exact .inl rfl

section outcomes

variable {memory : PhysMemory} {satp64 : SATP64} {levels : Nat} {va : VirtAddr}
  (paged : satp64.mode ≠ .bare) (translating : modeToLevels satp64.mode = .ok levels)

include paged translating

/-- A fault of the walk is the result of the translation. -/
theorem translate_of_fault {status : SimStatus}
    (walked : walk memory va (levels - 1) satp64.ppn = .fault status) (mstatus64 : MSTATUS64)
    (privLevel : PrivLevel) (accessType : AccessType) :
    translate memory mstatus64 satp64 privLevel accessType va = .ok ⟨status, 0⟩ := by
  simp only [translate, if_neg paged, translating, walked]

/-- A leaf that does not allow the access, or is not aligned, gives a page fault. -/
theorem translate_of_refused {i : Nat} {pte : PTE} (inside : i ≤ 4)
    (walked : walk memory va (levels - 1) satp64.ppn = .leaf i pte) {mstatus64 : MSTATUS64}
    {privLevel : PrivLevel} {accessType : AccessType}
    (refused : ¬(LeafAllows mstatus64 privLevel accessType pte ∧ Entry.Aligned pte i)) :
    translate memory mstatus64 satp64 privLevel accessType va = .ok ⟨.mmu64PageFault, 0⟩ := by
  simp only [translate, if_neg paged, translating, walked]
  by_cases allows : LeafAllows mstatus64 privLevel accessType pte
  · -- An allowed leaf is refused for its place.
    have crooked : ¬Entry.Aligned pte i := fun aligned => refused ⟨allows, aligned⟩
    rw [LeafAllows] at allows
    rw [allows, if_neg (by decide), if_pos ((superpage_iff pte inside).mpr crooked)]
  · rw [LeafAllows, Bool.not_eq_true] at allows
    simp only [allows]
    rfl

/-- An aligned leaf that allows the access and is marked gives its target. -/
theorem translate_of_leaf {i : Nat} {pte : PTE} (inside : i ≤ 4)
    (walked : walk memory va (levels - 1) satp64.ppn = .leaf i pte) {mstatus64 : MSTATUS64}
    {privLevel : PrivLevel} {accessType : AccessType}
    (allows : LeafAllows mstatus64 privLevel accessType pte) (aligned : Entry.Aligned pte i)
    (marked : (PTEFlags.ofPTE pte).a = true ∧ (PTEFlags.ofPTE pte).d = true) :
    translate memory mstatus64 satp64 privLevel accessType va =
      .ok ⟨.ok, calcPhysAddr pte va i⟩ := by
  rw [LeafAllows] at allows
  simp only [translate, if_neg paged, translating, walked]
  -- The three tests pass in turn.
  rw [allows, if_neg (by decide), if_neg (fun crooked => (superpage_iff pte inside).mp crooked aligned),
    marked.1, marked.2, if_neg (by decide)]

end outcomes

/-- A page fault is right when no entry is missing and no leaf translates the address. -/
theorem TranslatesByChain.of_pageFault {memory : PhysMemory} {mstatus64 : MSTATUS64}
    {satp64 : SATP64} {privLevel : PrivLevel} {accessType : AccessType} {levels : Nat}
    {va : VirtAddr} (reads : (tableEntries memory satp64 va).length ≤ levels)
    (failed : translate memory mstatus64 satp64 privLevel accessType va =
      .ok ⟨.mmu64PageFault, 0⟩)
    (present : ¬Missing memory.entry va levels satp64.ppn.toNat)
    (untranslated : ∀ pa, ¬Translates memory.entry va
      (LeafAllows mstatus64 privLevel accessType) levels satp64.ppn.toNat pa) :
    TranslatesByChain memory mstatus64 satp64 privLevel accessType levels va := by
  refine ⟨reads, ⟨_, failed⟩, fun pa => ?_, ?_, iff_of_true failed ⟨present, ?_⟩⟩
  · -- No leaf gives a page here, and no entry is missing.
    rw [failed]
    exact iff_of_false (by simp) (untranslated _)
  · rw [failed]
    exact iff_of_false (by simp) present
  · intro some
    obtain ⟨pa, translates⟩ := some
    exact untranslated pa translates

/-- With marked leaves, a translation gives what the chain of entries prescribes. -/
theorem translatesByChain {memory : PhysMemory} {mstatus64 : MSTATUS64} {satp64 : SATP64}
    {privLevel : PrivLevel} {accessType : AccessType} {levels : Nat} {va : VirtAddr}
    (translating : modeToLevels satp64.mode = .ok levels)
    (marked : LeavesMarked memory mstatus64 satp64 privLevel accessType levels va) :
    TranslatesByChain memory mstatus64 satp64 privLevel accessType levels va := by
  obtain ⟨positive, limit⟩ := modeToLevels_bounds translating
  have paged : satp64.mode ≠ .bare := by
    intro bare
    rw [bare] at translating
    cases translating
  have reads : (tableEntries memory satp64 va).length ≤ levels := by
    rw [tableEntries, translating]
    have bound := length_walkEntries memory va (levels - 1) satp64.ppn
    -- The walk goes down from the root, one level for each.
    dsimp only
    omega
  have spec := walk_spec memory va (show levels - 1 ≤ 4 by omega) satp64.ppn
  cases walked : walk memory va (levels - 1) satp64.ppn with
  | fault status =>
    have failed := translate_of_fault paged translating walked mstatus64 privLevel accessType
    rw [walked] at spec
    cases spec with
    | missing reaches none =>
      -- The walk met an entry outside RAM, so it met no leaf.
      have missing : Missing memory.entry va levels satp64.ppn.toNat := ⟨_, _, reaches, none⟩
      refine ⟨reads, ⟨_, failed⟩, fun pa => ?_, iff_of_true failed missing, ?_⟩
      · rw [failed]
        refine iff_of_false (by simp) ?_
        intro translates
        obtain ⟨_, _, _, finds, _⟩ := translates
        exact finds.not_missing missing
      · rw [failed]
        exact iff_of_false (by simp) fun neither => neither.1 missing
    | useless reaches found stops useless =>
      -- The walk met an entry that is neither a link nor a leaf.
      obtain ⟨present, leafless⟩ := not_finds_of_stops reaches found stops useless
      refine .of_pageFault reads failed present fun pa translates => ?_
      obtain ⟨_, _, _, finds, _⟩ := translates
      exact leafless _ _ finds
  | leaf i pte =>
    have inside : i ≤ 4 := by
      have := walk_leaf_le walked
      omega
    rw [walked] at spec
    cases spec with
    | leaf reaches found valid leaf =>
      have finds : FindsLeaf memory.entry va levels satp64.ppn.toNat i pte :=
        ⟨_, reaches, found, valid, leaf⟩
      have present := finds.not_missing
      by_cases used : LeafAllows mstatus64 privLevel accessType pte ∧ Entry.Aligned pte i
      · -- The one leaf of the address translates it.
        obtain ⟨allows, aligned⟩ := used
        have done := translate_of_leaf paged translating inside walked allows aligned
          (marked i pte finds allows aligned)
        have translates : Translates memory.entry va (LeafAllows mstatus64 privLevel accessType)
            levels satp64.ppn.toNat (Entry.target pte i va) :=
          ⟨i, finds.level_lt positive, pte, finds, allows, aligned, rfl⟩
        refine ⟨reads, ⟨_, done⟩, fun pa => ?_, ?_, ?_⟩
        · rw [done]
          constructor
          · intro same
            cases same
            rw [toNat_calcPhysAddr pte va inside]
            exact translates
          · intro other
            obtain ⟨l, _, otherPte, otherFinds, _, _, target⟩ := other
            obtain ⟨rfl, rfl⟩ := finds.unique otherFinds
            rw [← toNat_calcPhysAddr pte va inside] at target
            rw [BitVec.eq_of_toNat_eq target]
        · rw [done]
          exact iff_of_false (by simp) present
        · rw [done]
          exact iff_of_false (by simp) fun neither => neither.2 ⟨_, translates⟩
      · -- The only leaf of the address is one that translation refuses.
        have refused := translate_of_refused paged translating inside walked used
        refine .of_pageFault reads refused present fun pa translates => ?_
        obtain ⟨l, _, otherPte, otherFinds, allows, aligned, _⟩ := translates
        obtain ⟨rfl, rfl⟩ := finds.unique otherFinds
        exact used ⟨allows, aligned⟩

/-- The leaf that a walk finds is the only one that can be unmarked. -/
theorem leavesMarked_of_walk {memory : PhysMemory} {satp64 : SATP64} {levels i : Nat}
    {va : VirtAddr} {pte : PTE} (translating : modeToLevels satp64.mode = .ok levels)
    (walked : walk memory va (levels - 1) satp64.ppn = .leaf i pte)
    (marked : (PTEFlags.ofPTE pte).a = true ∧ (PTEFlags.ofPTE pte).d = true)
    (mstatus64 : MSTATUS64) (privLevel : PrivLevel) (accessType : AccessType) :
    LeavesMarked memory mstatus64 satp64 privLevel accessType levels va := by
  -- Another leaf of the chain would be the same one.
  intro l other finds _ _
  obtain ⟨_, limit⟩ := modeToLevels_bounds translating
  have spec := walk_spec memory va (show levels - 1 ≤ 4 by omega) satp64.ppn
  rw [walked] at spec
  cases spec with
  | leaf reaches found valid leaf =>
    have first : FindsLeaf memory.entry va levels satp64.ppn.toNat i pte :=
      ⟨_, reaches, found, valid, leaf⟩
    obtain ⟨rfl, rfl⟩ := first.unique finds
    exact marked

/-- A memory of one page of zeros. -/
def PhysMemory.onePage : PhysMemory :=
  match PhysMemory.new.addRAMPage 0 with
  | .ok (_, memory) => memory
  | .error _ => PhysMemory.new

/-- A memory of one page that starts with an entry. -/
def PhysMemory.holdingEntry (pte : PTE) : PhysMemory :=
  (PhysMemory.onePage.write (n := pteBytes) 0 pte).2

/-- One leaf of the highest level translates the first gibibyte. -/
theorem translatesByChain_gibibyte :
    Translates (PhysMemory.holdingEntry 0xdf).entry 0x12345678 (LeafAllows {} .user .read) 3 0
      0x12345678 := by
  have walked : walk (PhysMemory.holdingEntry 0xdf) 0x12345678 (3 - 1) 0 = .leaf 2 0xdf := by
    decide +kernel
  have marked : LeavesMarked (PhysMemory.holdingEntry 0xdf) {} ⟨.sv39, 0, 0⟩ .user .read 3
      0x12345678 :=
    leavesMarked_of_walk rfl walked (by decide +kernel) {} .user .read
  exact ((translatesByChain rfl marked).ok 0x12345678).mp (by decide +kernel)

end RiscvSim

import RiscvSim.Memory.Mmu64
import RiscvSim.Proofs.Memory.PhysMemory

/-! Translation goes page by page, and depends on the entries that its walk reads alone. -/

namespace RiscvSim

open PhysMemory (Fits)

/-- The addresses of the entries that a walk reads. -/
def walkEntries (memory : PhysMemory) (va : VirtAddr) : (i : Nat) → (tablePpn : PhysAddr) →
    List PhysAddr
  | i, tablePpn =>
    let result := memory.read (n := pteBytes) (pteAddr tablePpn va i) 0
    pteAddr tablePpn va i ::
      if result.status ≠ .ok then []
      else if pteMalformed result.dst then []
      else if pteIsLeaf result.dst then []
      else
        match i with
        | 0 => []
        | i + 1 => walkEntries memory va i (ptePpn result.dst)

/-- The addresses of the entries that the translation of an address reads. -/
def tableEntries (memory : PhysMemory) (satp64 : SATP64) (va : VirtAddr) : List PhysAddr :=
  match modeToLevels satp64.mode with
  | .error _ => []
  | .ok levels => walkEntries memory va (levels - 1) satp64.ppn

/-- The physical address a number of bytes further, when there is one. -/
def TranslateResult.advance (result : TranslateResult) (offset : PhysAddr) : TranslateResult :=
  if result.status = .ok then { result with physAddr := result.physAddr + offset } else result

section congruence

variable {memory other : PhysMemory}

/-- A read depends on the bytes of its run alone. -/
theorem PhysMemory.read_congr {n : Nat} {physAddr : PhysAddr} (positive : 0 < n)
    (same : ∀ addr, ByteStore.InRun physAddr n addr → other.bytes addr = memory.bytes addr)
    (dst : BitVec (8 * n)) :
    (other.read physAddr dst).status = (memory.read physAddr dst).status ∧
      (other.read physAddr dst).dst = (memory.read physAddr dst).dst := by
  -- The first byte tells whether the page is there.
  have first : ByteStore.InRun physAddr n physAddr := by
    rw [ByteStore.InRun, BitVec.sub_self]
    exact positive
  have page : other.HasPage physAddr ↔ memory.HasPage physAddr := by
    rw [← isSome_bytes, ← isSome_bytes, same physAddr first]
  have status : (other.read physAddr dst).status = (memory.read physAddr dst).status := by
    rw [read_status, read_status]
    simp only [accessStatus, page]
  refine ⟨status, ?_⟩
  by_cases ok : (memory.read physAddr dst).status = .ok
  · rw [(read_ok ok).1, (read_ok (status.trans ok)).1]
    have fits : Fits physAddr n := by
      rw [read_status] at ok
      exact (accessStatus_ok_iff.mp ok).1
    exact ByteStore.get_congr (by unfold Fits at fits; omega) same
  · rw [read_failed ok, read_failed (by rwa [status])]

/-- A walk depends on the entries that it reads alone. -/
theorem walk_congr (va : VirtAddr) {i : Nat} {tablePpn : PhysAddr}
    (same : ∀ pte ∈ walkEntries memory va i tablePpn, ∀ addr,
      ByteStore.InRun pte pteBytes addr → other.bytes addr = memory.bytes addr) :
    walk other va i tablePpn = walk memory va i tablePpn ∧
      walkEntries other va i tablePpn = walkEntries memory va i tablePpn := by
  -- By induction on the level, the entry is the same and so is the table below it.
  induction i generalizing tablePpn with
  | zero =>
    -- The first entry is always read, and there is no table below it.
    have here : pteAddr tablePpn va 0 ∈ walkEntries memory va 0 tablePpn := by
      unfold walkEntries
      exact List.mem_cons_self
    obtain ⟨status, dst⟩ := PhysMemory.read_congr (n := pteBytes) (by decide) (same _ here) 0
    unfold walk walkEntries
    simp only [status, dst, and_self]
  | succ i ih =>
    have here : pteAddr tablePpn va (i + 1) ∈ walkEntries memory va (i + 1) tablePpn := by
      unfold walkEntries
      exact List.mem_cons_self
    obtain ⟨status, dst⟩ := PhysMemory.read_congr (n := pteBytes) (by decide) (same _ here) 0
    -- Where the walk goes on, the entries that are left are those of the table below.
    unfold walkEntries at same
    unfold walk walkEntries
    simp only [status, dst]
    split
    · exact ⟨rfl, rfl⟩
    · rename_i ok
      split
      · exact ⟨rfl, rfl⟩
      · rename_i wellFormed
        split
        · exact ⟨rfl, rfl⟩
        · rename_i link
          have next := @ih (ptePpn
            (memory.read (n := pteBytes) (pteAddr tablePpn va (i + 1)) 0).dst) fun pte member => by
              refine same pte (List.mem_cons_of_mem _ ?_)
              simpa only [if_neg ok, if_neg wellFormed, if_neg link] using member
          exact ⟨next.1, congrArg _ next.2⟩

/-- A translation depends on the entries that it reads alone. -/
theorem translate_congr (satp64 : SATP64) (va : VirtAddr)
    (same : ∀ pte ∈ tableEntries memory satp64 va, ∀ addr,
      ByteStore.InRun pte pteBytes addr → other.bytes addr = memory.bytes addr)
    (mstatus64 : MSTATUS64) (privLevel : PrivLevel) (accessType : AccessType) :
    translate other mstatus64 satp64 privLevel accessType va =
      translate memory mstatus64 satp64 privLevel accessType va := by
  -- Without tables no entry is read, and with them only the walk reads any.
  unfold translate
  split
  · rfl
  · cases levels : modeToLevels satp64.mode with
    | error why => rfl
    | ok levels' =>
      simp only [tableEntries, levels] at same
      simp only [(walk_congr va same).1]

/-- The entries that a translation reads depend on these entries alone. -/
theorem tableEntries_congr (satp64 : SATP64) (va : VirtAddr)
    (same : ∀ pte ∈ tableEntries memory satp64 va, ∀ addr,
      ByteStore.InRun pte pteBytes addr → other.bytes addr = memory.bytes addr) :
    tableEntries other satp64 va = tableEntries memory satp64 va := by
  unfold tableEntries at same ⊢
  cases levels : modeToLevels satp64.mode with
  | error why => rfl
  | ok levels' =>
    simp only [levels] at same
    exact (walk_congr va same).2

end congruence

section pages

variable {memory : PhysMemory}

/-- Page number fields lie above the page offset. -/
theorem getVPN_pageBase (va : VirtAddr) (i : Nat) : getVPN (pageBase va) i = getVPN va i := by
  have low (k : Nat) : (pageBase va).getLsbD k = (va.getLsbD k && decide (12 ≤ k)) := by
    rw [pageBase, BitVec.getLsbD_and, BitVec.getLsbD_not]
    by_cases inside : k < 64
    · have mask : pageOffsetMask.getLsbD k = decide (k < 12) := by
        rw [show pageOffsetMask = Bits.lowMask 64 12 from rfl, Bits.getLsbD_lowMask]
        simp [inside]
      rw [mask]
      -- The mask clears the bits below the offset's width and keeps the others.
      by_cases above : 12 ≤ k
      · simp [inside, above]
      · simp [Nat.lt_of_not_le above, above]
    · simp [BitVec.getLsbD_of_ge va k (by omega)]
  -- A field is shifted out of the bits from its lowest one upwards, which is past the offset.
  have widths : max 64 intWidth = 64 := rfl
  unfold getVPN getBitField
  rw [widths]
  ext k bound
  simp only [BitVec.setWidth_eq, BitVec.getElem_ushiftRight, BitVec.getLsbD_shiftLeft, low,
    pageBitSize, vpnBitStep]
  grind

/-- An address selects the same entries as its page. -/
theorem pteAddr_pageBase (tablePpn : PhysAddr) (va : VirtAddr) (i : Nat) :
    pteAddr tablePpn (pageBase va) i = pteAddr tablePpn va i := by
  -- The field alone decides the entry.
  rw [pteAddr, pteAddr, getVPN_pageBase]

/-- Addresses of one page are walked alike. -/
theorem walk_pageBase (va : VirtAddr) (i : Nat) (tablePpn : PhysAddr) :
    walk memory (pageBase va) i tablePpn = walk memory va i tablePpn := by
  -- Every entry on the way is selected by the same fields.
  induction i generalizing tablePpn with
  | zero =>
    rw [walk, walk]
    simp only [pteAddr_pageBase]
  | succ i ih =>
    rw [walk, walk]
    simp only [pteAddr_pageBase, ih]

/-- A walk that faults has a status to report. -/
theorem walk_fault_ne {va : VirtAddr} {i : Nat} {tablePpn : PhysAddr} {status : SimStatus}
    (fault : walk memory va i tablePpn = .fault status) : status ≠ .ok := by
  -- A walk ends with the status of a failed read or with a page fault.
  induction i generalizing tablePpn with
  | zero =>
    rw [walk] at fault
    split at fault
    · cases fault
      assumption
    · split at fault
      · cases fault
        decide
      · split at fault <;> cases fault
        decide
  | succ i ih =>
    rw [walk] at fault
    split at fault
    · cases fault
      assumption
    · split at fault
      · cases fault
        decide
      · split at fault
        · cases fault
        · exact ih fault

/-- A leaf is found at the level of the first table or below. -/
theorem walk_leaf_le {va : VirtAddr} {i j : Nat} {tablePpn : PhysAddr} {pte : PTE}
    (found : walk memory va i tablePpn = .leaf j pte) : j ≤ i := by
  -- Each link goes down one level.
  induction i generalizing tablePpn with
  | zero =>
    unfold walk at found
    dsimp only at found
    split at found
    · cases found
    · split at found
      · cases found
      · split at found
        · cases found
          exact Nat.le_refl 0
        · cases found
  | succ i ih =>
    unfold walk at found
    dsimp only at found
    split at found
    · cases found
    · split at found
      · cases found
      · split at found
        · cases found
          exact Nat.le_refl _
        · exact Nat.le_succ_of_le (ih found)

/-- The physical address of a leaf is that of its page plus the page offset. -/
theorem calcPhysAddr_pageBase (pte : PTE) (va : VirtAddr) {i : Nat} (inside : i ≤ 4) :
    calcPhysAddr pte va i = calcPhysAddr pte (pageBase va) i + pageOffset va ∧
      (calcPhysAddr pte (pageBase va) i).toNat % 4096 = 0 := by
  -- The offset has the bits of the page and of the fields below the level.
  have bits : (2 : Nat) ^ (12 + i * 9 - 1 - 0 + 1) = 4096 * 2 ^ (i * 9) := by
    rw [show 12 + i * 9 - 1 - 0 + 1 = 12 + i * 9 by omega, Nat.pow_add]
  have offset (addr : VirtAddr) : (getBitField (12 + i * 9 - 1) 0 addr).toNat =
      addr.toNat % (4096 * 2 ^ (i * 9)) := by
    rw [toNat_getBitField addr (by decide) (by omega) (by omega), bits, Nat.pow_zero, Nat.div_one]
  -- The part of the offset above the page is the same for the whole page.
  have split : va.toNat % (4096 * 2 ^ (i * 9)) =
      (pageBase va).toNat % (4096 * 2 ^ (i * 9)) + va.toNat % 4096 := by
    have := Nat.mod_mul (x := va.toNat) (a := 4096) (b := 2 ^ (i * 9))
    have base : (pageBase va).toNat = 4096 * (va.toNat / 4096) := by
      rw [toNat_pageBase]
      omega
    rw [base, Nat.mul_mod_mul_left]
    omega
  -- The page number is moved above the page offset.
  have top (value : BitVec 64) : (value <<< (12 + i * 9)).toNat % 4096 = 0 := by
    rw [BitVec.toNat_shiftLeft, Nat.shiftLeft_eq, Nat.pow_add]
    have : value.toNat * (2 ^ 12 * 2 ^ (i * 9)) = 4096 * (value.toNat * 2 ^ (i * 9)) :=
      Nat.mul_left_comm _ _ _
    rw [this]
    omega
  constructor
  · apply BitVec.eq_of_toNat_eq
    simp only [calcPhysAddr, pageBitSize, ppnBitStep, BitVec.toNat_add, offset, toNat_pageOffset]
    rw [split]
    omega
  · -- Neither part has bits in the page offset.
    have aligned : (pageBase va).toNat % (4096 * 2 ^ (i * 9)) % 4096 = 0 := by
      rw [Nat.mod_mul_right_mod]
      rw [toNat_pageBase]
      omega
    simp only [calcPhysAddr, pageBitSize, ppnBitStep, BitVec.toNat_add, offset]
    have above := top (getBitField ptePpnHi (ptePpnLo + i * 9) pte)
    omega

/-- The number of levels of a translating mode. -/
theorem modeToLevels_bounds {mode : ModeValue} {levels : Nat}
    (translating : modeToLevels mode = .ok levels) : 0 < levels ∧ levels ≤ 5 := by
  -- There is one case for each mode, and bare has no levels.
  cases mode <;> cases translating <;> decide

/-- A page is translated as a whole, to a page. -/
theorem translate_page (mstatus64 : MSTATUS64) (satp64 : SATP64) (privLevel : PrivLevel)
    (accessType : AccessType) (va : VirtAddr) :
    translate memory mstatus64 satp64 privLevel accessType va =
        (translate memory mstatus64 satp64 privLevel accessType (pageBase va)).map
          (·.advance (pageOffset va)) ∧
      ∀ pa, translate memory mstatus64 satp64 privLevel accessType (pageBase va) = .ok ⟨.ok, pa⟩ →
        pageBase pa = pa := by
  unfold translate
  by_cases bare : satp64.mode = .bare
  · -- Without translation a page is its own, and so is its offset.
    simp only [if_pos bare]
    refine ⟨?_, fun pa same => ?_⟩
    · simp [Except.map, TranslateResult.advance, pageBase_add_pageOffset]
    · cases same
      exact pageBase_pageBase va
  · simp only [if_neg bare]
    cases translating : modeToLevels satp64.mode with
    | error why => exact ⟨rfl, fun pa same => by cases same⟩
    | ok levels =>
      have limit := modeToLevels_bounds translating
      simp only [walk_pageBase]
      cases walked : walk memory va (levels - 1) satp64.ppn with
      -- A fault has no address to move.
      | fault status =>
        have failed := walk_fault_ne walked
        simp [Except.map, TranslateResult.advance, failed]
      | leaf i pte =>
        obtain ⟨sum, aligned⟩ := calcPhysAddr_pageBase pte va
          (i := i) (by have := walk_leaf_le walked; omega)
        dsimp only
        split
        · -- The permissions are those of the whole page.
          simp [Except.map, TranslateResult.advance]
        · split
          · -- So is the alignment of the leaf.
            simp [Except.map, TranslateResult.advance]
          · split
            · -- A missing mark aborts for every address of the page.
              simp [Except.map]
            · refine ⟨by simp [Except.map, TranslateResult.advance, sum], fun pa same => ?_⟩
              cases same
              exact (pageBase_eq_self_iff _).mpr aligned

end pages

end RiscvSim

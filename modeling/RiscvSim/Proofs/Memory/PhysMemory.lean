import RiscvSim.Memory.PhysMemory
import RiscvSim.Lib.ByteStore

/-! Physical memory seen as a flat partial store of bytes. -/

namespace RiscvSim

open PageAllocator (InPage)

namespace PhysMemory

/-- The byte at a physical address, when its page is in RAM. -/
def bytes (memory : PhysMemory) : ByteStore 64 := fun addr =>
  (memory.ram.mapping (pageBase addr)).map fun host =>
    memory.heap (host.add (pageOffset addr).toNat)

/-- A RAM page was added. -/
def HasPage (memory : PhysMemory) (addr : PhysAddr) : Prop :=
  (memory.ram.mapping (pageBase addr)).isSome

/-- The bytes of an access all lie in one page. -/
def Fits (physAddr : PhysAddr) (n : Nat) : Prop :=
  physAddr.toNat % 4096 + n ≤ 4096

instance (physAddr : PhysAddr) (n : Nat) : Decidable (Fits physAddr n) :=
  inferInstanceAs (Decidable (_ ≤ _))

instance (memory : PhysMemory) (addr : PhysAddr) : Decidable (memory.HasPage addr) :=
  inferInstanceAs (Decidable ((_ : Bool) = true))

/-- The status of an access of `n` bytes. -/
def accessStatus (present : Prop) [Decidable present] (physAddr : PhysAddr) (n : Nat) : SimStatus :=
  -- Crossing a page is reported before a missing page.
  if ¬Fits physAddr n then .physMemPageAlignError
  else if present then .ok else .physMemAccessFault

variable {memory : PhysMemory} {n : Nat} {physAddr : PhysAddr}

/-- An address holds a byte exactly when its page was added. -/
theorem isSome_bytes (memory : PhysMemory) (addr : PhysAddr) :
    (memory.bytes addr).isSome ↔ memory.HasPage addr := by
  -- The byte is there whatever the host page holds.
  simp [bytes, HasPage]

/-- The crossing test of an access is the negation of fitting in a page. -/
theorem crosses_iff : pageSize < (pageOffset physAddr).toNat + n ↔ ¬Fits physAddr n := by
  rw [toNat_pageOffset, Fits, Nat.not_le]
  exact Iff.rfl

/-- An address of an access that fits in a page has the page and the next offset of its start. -/
theorem address_in_page (fits : Fits physAddr n) {i : Nat} (inside : i < n) :
    pageBase (physAddr + BitVec.ofNat 64 i) = pageBase physAddr ∧
      (pageOffset (physAddr + BitVec.ofNat 64 i)).toNat = (pageOffset physAddr).toNat + i := by
  -- The access ends before its page does, so nothing carries into the page number.
  unfold Fits at fits
  have sum := toNat_add_in_page physAddr (i := i) (by omega)
  constructor
  · rw [pageBase_eq_iff, sum]
    omega
  · rw [toNat_pageOffset, toNat_pageOffset, sum]
    omega

/-- Every address of an access that fits in a page lies in that page. -/
theorem pageBase_of_inRun (fits : Fits physAddr n) {addr : PhysAddr}
    (inside : ByteStore.InRun physAddr n addr) : pageBase addr = pageBase physAddr := by
  -- The run does not wrap, so its addresses lie between its ends.
  have range := (toNat_sub_lt_iff addr physAddr fits).mp inside
  unfold Fits at fits
  rw [pageBase_eq_iff]
  omega

/-- The value behind the host page is the word of the flat store. -/
theorem load_eq_get {host : HostPtr} (fits : Fits physAddr n)
    (found : memory.ram.mapping (pageBase physAddr) = some host) :
    memory.load n (host.add (pageOffset physAddr).toNat) = memory.bytes.get n physAddr := by
  -- The bytes of the word are those of the host page, from the offset of the address on.
  apply LittleEndian.fromBytes_congr
  intro i inside
  obtain ⟨base, offset⟩ := address_in_page fits inside
  rw [bytes, base, found, offset]
  simp [HostPtr.add, Nat.add_assoc]

/-- An access succeeds exactly when it fits in a page that is there. -/
theorem accessStatus_ok_iff {present : Prop} [Decidable present] :
    accessStatus present physAddr n = .ok ↔ Fits physAddr n ∧ present := by
  -- The first test is for the crossing, and the second one for the page.
  unfold accessStatus
  split
  · simp_all
  · split <;> simp_all

/-- The status of a read depends only on the address and the pages. -/
theorem read_status (memory : PhysMemory) (physAddr : PhysAddr) (dst : BitVec (8 * n)) :
    (memory.read physAddr dst).status = accessStatus (memory.HasPage physAddr) physAddr n := by
  unfold read accessStatus
  -- The tests of the read are those of the status.
  simp only [crosses_iff, RAM.getHostPagePtr, HasPage]
  split
  · rfl
  · split <;> rename_i found <;> simp [found]

/-- A successful read gives the word of the flat store and the host page it lies in. -/
theorem read_ok {dst : BitVec (8 * n)} (ok : (memory.read physAddr dst).status = .ok) :
    (memory.read physAddr dst).dst = memory.bytes.get n physAddr ∧
      ∃ host, memory.ram.mapping (pageBase physAddr) = some host ∧
        (memory.read physAddr dst).hostPagePtr = some host := by
  unfold read at ok ⊢
  simp only [crosses_iff, RAM.getHostPagePtr] at ok ⊢
  split at ok
  · -- Neither a crossing access nor a missing page has the status of success.
    cases ok
  · rename_i fits
    rw [if_neg fits]
    cases found : memory.ram.mapping (pageBase physAddr) with
    | none => simp [found] at ok
    | some host => exact ⟨load_eq_get (Decidable.not_not.mp fits) found, host, rfl, rfl⟩

/-- A failed read leaves the destination as it was. -/
theorem read_failed {dst : BitVec (8 * n)} (failed : (memory.read physAddr dst).status ≠ .ok) :
    (memory.read physAddr dst).dst = dst := by
  unfold read at failed ⊢
  -- A crossing access and a missing page both give the destination back.
  split
  · rfl
  · rename_i fits
    rw [if_neg fits] at failed
    cases found : memory.ram.getHostPagePtr (pageBase physAddr) with
    | none => rfl
    | some host => simp [found] at failed

/-- The status of a write depends only on the address and the pages. -/
theorem write_status (memory : PhysMemory) (physAddr : PhysAddr) (value : BitVec (8 * n)) :
    (memory.write physAddr value).1.status = accessStatus (memory.HasPage physAddr) physAddr n := by
  unfold write accessStatus
  -- The tests of the write are those of the status.
  simp only [crosses_iff]
  split
  · rfl
  · split <;> rename_i found <;> simp [HasPage, show memory.ram.mapping _ = _ from found]

/-- A failed write leaves the memory as it was. -/
theorem write_failed {value : BitVec (8 * n)}
    (failed : (memory.write physAddr value).1.status ≠ .ok) :
    (memory.write physAddr value).2 = memory := by
  unfold write at failed ⊢
  -- The memory is replaced only where the host page is found.
  split
  · rfl
  · rename_i fits
    rw [dif_neg fits] at failed
    split
    · rename_i found
      split at failed
      · exact absurd rfl failed
      · rename_i missing
        rw [found] at missing
        cases missing
    · rfl

/-- Storing through a page's host pointer replaces the bytes at the RAM addresses of that page. -/
theorem bytes_store {host : HostPtr} (fits : Fits physAddr n)
    (found : memory.ram.mapping (pageBase physAddr) = some host) (value : BitVec (8 * n))
    (valid : memory.ValidPtr (host.add (pageOffset physAddr).toNat) n) :
    (memory.store (host.add (pageOffset physAddr).toNat) value valid).bytes =
      memory.bytes.put physAddr value := by
  -- The two stores are compared at each address, which may have a page or not.
  funext addr
  have range : ByteStore.InRun physAddr n addr ↔ _ := toNat_sub_lt_iff addr physAddr fits
  simp only [bytes, store, storeBytes, ByteStore.put]
  cases here : memory.ram.mapping (pageBase addr) with
  | none => simp
  | some other =>
    have bound := Nat.mod_lt addr.toNat (show 0 < 4096 by decide)
    simp only [Option.map_some, HostPtr.add, toNat_pageOffset]
    by_cases same : pageBase addr = pageBase physAddr
    · -- In the same page, host offsets and RAM offsets run in step.
      rw [same, found] at here
      cases here
      have pages := (pageBase_eq_iff addr physAddr).mp same
      by_cases inside : physAddr.toNat ≤ addr.toNat ∧ addr.toNat < physAddr.toNat + n
      · rw [if_pos (by omega), if_pos (range.mpr inside), toNat_sub_of_ge inside.1]
        congr 2
        omega
      · rw [if_neg (by omega), if_neg (mt range.mp inside)]
    · -- Another page has a host page of its own, which shares no byte with this one.
      rw [if_neg (mt (pageBase_of_inRun fits) same), if_neg]
      rintro ⟨region, lower, upper⟩
      refine same (memory.ram.distinct _ _ other host (other.add (addr.toNat % 4096)) here found
        ⟨rfl, ?_, ?_⟩ ⟨region, ?_, ?_⟩) <;>
        simp only [HostPtr.add, pageSize, pageBitSize] <;> unfold Fits at fits <;> omega

/-- A successful write replaces exactly its own bytes and reports the host page it lies in. -/
theorem write_ok {value : BitVec (8 * n)} (ok : (memory.write physAddr value).1.status = .ok) :
    (memory.write physAddr value).2.bytes = memory.bytes.put physAddr value ∧
      (memory.write physAddr value).2.ram = memory.ram ∧
      ∃ host, memory.ram.mapping (pageBase physAddr) = some host ∧
        (memory.write physAddr value).1.hostPagePtr = some host := by
  unfold write at ok ⊢
  -- The write succeeds only where it fits and finds its page.
  split
  · rename_i crosses
    rw [dif_pos crosses] at ok
    cases ok
  · rename_i within
    have fits := Decidable.not_not.mp (mt crosses_iff.mpr within)
    split
    · rename_i host found
      have valid := validPtr_of_page found (Nat.le_of_not_lt within)
      exact ⟨bytes_store fits found value valid, rfl, host, found, rfl⟩
    · rename_i missing
      rw [dif_neg (by assumption)] at ok
      split at ok
      · rename_i found
        rw [missing] at found
        cases found
      · cases ok

/-- A write never changes which pages there are. -/
theorem write_ram (memory : PhysMemory) (physAddr : PhysAddr) (value : BitVec (8 * n)) :
    (memory.write physAddr value).2.ram = memory.ram := by
  -- A write that succeeds keeps the pages, and one that fails keeps everything.
  by_cases ok : (memory.write physAddr value).1.status = .ok
  · exact (write_ok ok).2.1
  · rw [write_failed ok]

/-- Adding a page at a page address tells whether it is new and fills it with zeros. -/
theorem addRAMPage_eq (memory : PhysMemory) (page : PhysAddr) (aligned : pageBase page = page) :
    ∃ added, memory.addRAMPage page = .ok (!decide (memory.HasPage page), added) ∧
      added.bytes = memory.bytes.extend (fun addr => pageBase addr = page) ∧
      ∀ addr host, memory.ram.mapping addr = some host → added.ram.mapping addr = some host := by
  -- A page address passes the assertion.
  have masked : page &&& pageOffsetMask = 0 := by
    apply BitVec.eq_of_toNat_eq
    have low := toNat_pageOffset page
    rw [(pageBase_eq_self_iff page).mp aligned] at low
    exact low
  -- The pages after the call are either the same or extended by one fresh host page.
  have shape : memory.ram.addPage page = .ok (!decide (memory.HasPage page),
      if memory.HasPage page then memory.ram.discard else memory.ram.emplace page) := by
    have direct : memory.HasPage page ↔ (memory.ram.mapping page).isSome := by
      rw [HasPage, aligned]
    unfold RAM.addPage
    rw [if_neg (by simp [masked])]
    by_cases present : memory.HasPage page <;> simp [present, ← direct]
  unfold addRAMPage
  -- The call cannot fail, as the assertion holds.
  split
  · rename_i failed
    rw [shape] at failed
    cases failed
  · rename_i fresh ram added
    rw [shape] at added
    obtain ⟨rfl, rfl⟩ := Prod.mk.inj (Except.ok.inj added)
    refine ⟨_, rfl, ?_, ?_⟩
    · funext addr
      by_cases present : memory.HasPage page
      · -- The mapping is kept, and every address of the page already holds a byte.
        simp only [bytes, if_pos present, RAM.discard, ByteStore.extend]
        split
        · rename_i same
          rw [HasPage, aligned, ← same] at present
          obtain ⟨host, found⟩ := Option.isSome_iff_exists.mp present
          simp [found]
        · rfl
      · -- The page is new, and its addresses read as those of a fresh host page.
        simp only [bytes, if_neg present, RAM.emplace, ByteStore.extend]
        split
        · -- The new host page still holds the zeros that were mapped.
          rename_i same
          have missing : memory.ram.mapping page = none := by
            simpa [HasPage, aligned] using present
          rw [same, Function.update_self, missing]
          simp only [Option.map_some, Option.map_none, Option.getD_none, Option.some.injEq]
          apply memory.zeroed
          apply memory.ram.pageAllocator.allocPage_fresh
          have bound := Nat.mod_lt addr.toNat (show 0 < 4096 by decide)
          refine ⟨rfl, ?_, ?_⟩ <;>
            simp only [HostPtr.add, toNat_pageOffset, pageSize, pageBitSize] <;> omega
        · rename_i other
          rw [Function.update_of_ne other]
    · -- A page that was there keeps its host page.
      intro addr host found
      by_cases present : memory.HasPage page
      · simpa only [if_pos present, RAM.discard] using found
      · have other : addr ≠ page := by
          rintro rfl
          simp [HasPage, aligned, found] at present
        simpa only [if_neg present, RAM.emplace, Function.update_of_ne other] using found

/-- Pages are added at page addresses alone. -/
theorem addRAMPage_aligned {added : PhysMemory} {page : PhysAddr} {fresh : Bool}
    (result : memory.addRAMPage page = .ok (fresh, added)) : pageBase page = page := by
  -- The assertion lets only addresses without an offset pass.
  rw [pageBase_eq_self_iff, ← toNat_pageOffset, pageOffset]
  by_contra offset
  have masked : page &&& pageOffsetMask ≠ 0 := fun zero => offset (congrArg BitVec.toNat zero)
  have failed : memory.ram.addPage page = .error .assertion := by rw [RAM.addPage, if_pos masked]
  unfold addRAMPage at result
  split at result
  · cases result
  · rename_i ram added
    cases failed.symm.trans added

/-- Adding a page keeps the others where they are. -/
theorem addRAMPage_keeps {added : PhysMemory} {page : PhysAddr} {fresh : Bool}
    (result : memory.addRAMPage page = .ok (fresh, added)) :
    ∀ addr host, memory.ram.mapping addr = some host → added.ram.mapping addr = some host := by
  -- The call is the one that was described above.
  obtain ⟨other, same, _, kept⟩ := memory.addRAMPage_eq page (addRAMPage_aligned result)
  cases same.symm.trans result
  exact kept

end PhysMemory

end RiscvSim

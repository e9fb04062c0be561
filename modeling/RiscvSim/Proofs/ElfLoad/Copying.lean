import RiscvSim.Proofs.ElfLoad.Loading

/-! The loop that copies the bytes of a segment, seen at virtual addresses. -/

namespace RiscvSim

open PhysMemory (Fits)

namespace ElfLoader

variable {history : List MapCall} {loader : ElfLoader} {memory after : PhysMemory} {ppn : PPN}
  {va : VirtAddr} {n : Nat} {elfBuf : List (BitVec 8)} {seg : GElfPhdr}

/-- The number of a page from the address of one of its bytes. -/
theorem toNat_div_page (addr : VirtAddr) : (addr / 4096#64).toNat = addr.toNat / 4096 :=
  BitVec.toNat_udiv

/-- Two addresses share a virtual page when their page numbers agree. -/
theorem div_page_eq_iff (left right : VirtAddr) :
    left / 4096#64 = right / 4096#64 ↔ left.toNat / 4096 = right.toNat / 4096 := by
  rw [← BitVec.toNat_inj, toNat_div_page, toNat_div_page]

/-- Distances in a virtual page are those in the physical page behind it. -/
theorem toNat_sub_inPage (small : ppn.toNat < 2 ^ 44) {addr : VirtAddr}
    (samePage : addr.toNat / 4096 = va.toNat / 4096) :
    (ppn * 4096#64 + addr % 4096#64 - (ppn * 4096#64 + va % 4096#64)).toNat =
      (addr - va).toNat := by
  -- Both addresses have the same position in their pages, virtual and physical.
  have place := toNat_inPage small addr
  have start := toNat_inPage small va
  have bound := addr.isLt
  have startBound := va.isLt
  rw [BitVec.toNat_sub, BitVec.toNat_sub, place, start]
  omega

/-- The page of an address is that of its page address. -/
theorem sub_pageOffset_div (addr : VirtAddr) :
    (addr - pageOffset addr) / BitVec.ofNat 64 pageSize = addr / 4096#64 := by
  apply BitVec.eq_of_toNat_eq
  -- The offset is below the address, so the subtraction does not wrap.
  have offset := toNat_pageOffset addr
  have below : (pageOffset addr).toNat ≤ addr.toNat := by omega
  rw [toNat_div_page, BitVec.toNat_udiv, BitVec.toNat_sub_of_le below, offset,
    show (BitVec.ofNat 64 pageSize).toNat = 4096 from rfl]
  omega

namespace Loading

/-- A write to a known page is a write at its virtual address. -/
theorem view_put (loading : Loading history loader memory) {word : BitVec (8 * n)}
    (known : loader.mapping (va / 4096#64) = some ppn) (inside : va.toNat % 4096 + n ≤ 4096)
    (bytes : after.bytes = memory.bytes.put (ppn * 4096#64 + va % 4096#64) word) :
    Loading history loader after ∧ loader.view after = (loader.view memory).put va word := by
  have bounds := loading.bounds known
  have start := toNat_inPage bounds.2.2 va
  have fits : Fits (ppn * 4096#64 + va % 4096#64) n := by
    rw [Fits, start]
    omega
  constructor
  · apply loading.of_memory
    · -- The page that is written lies above the tables.
      intro addr table
      rw [bytes]
      refine if_neg fun within => ?_
      have range := (toNat_sub_lt_iff addr _ fits).mp within
      omega
    · intro addr
      rw [bytes, ByteStore.isSome_put]
  · funext addr
    rw [view, ByteStore.put, view, bytes]
    -- In the virtual page the two stores agree byte for byte.
    by_cases samePage : addr.toNat / 4096 = va.toNat / 4096
    · have distance := toNat_sub_inPage bounds.2.2 samePage
      have range : ByteStore.InRun (ppn * 4096#64 + va % 4096#64) n
          (ppn * 4096#64 + addr % 4096#64) ↔ ByteStore.InRun va n addr := by
        rw [ByteStore.InRun, ByteStore.InRun, distance]
      rw [(div_page_eq_iff addr va).mpr samePage, known, Option.bind_some, Option.bind_some,
        ByteStore.put]
      by_cases within : ByteStore.InRun va n addr
      · rw [if_pos within, if_pos (range.mpr within), distance]
      · rw [if_neg within, if_neg (mt range.mp within)]
    · -- No other virtual page has the physical page that is written.
      have apart : ¬ByteStore.InRun va n addr := by
        intro within
        have range := (toNat_sub_lt_iff addr va inside).mp within
        omega
      rw [if_neg apart]
      cases found : loader.mapping (addr / 4096#64) with
      | none => rfl
      | some other =>
        have otherBounds := loading.bounds found
        have place := toNat_inPage otherBounds.2.2 addr
        rw [Option.bind_some, Option.bind_some, ByteStore.put, if_neg]
        intro within
        have range := (toNat_sub_lt_iff _ _ fits).mp within
        have same : other = ppn := by
          apply BitVec.eq_of_toNat_eq
          omega
        rw [same] at found
        exact samePage ((div_page_eq_iff addr va).mp (loading.distinct _ _ _ found known))

/-- The page behind a known virtual page is in RAM. -/
theorem hasPage (loading : Loading history loader memory)
    (known : loader.mapping (va / 4096#64) = some ppn) (addr : PhysAddr)
    (inPage : addr.toNat / 4096 = ppn.toNat) : memory.HasPage addr := by
  have bounds := loading.bounds known
  rw [← PhysMemory.isSome_bytes, loading.pages, inPage]
  exact bounds.2.1

/-- Bytes copied behind the host pointer of a page are put at the page's addresses. -/
theorem memcpy_ok {host : HostPtr} {physAddr : PhysAddr} {src : List (BitVec 8)}
    (found : memory.ram.mapping (pageBase physAddr) = some host) (fits : Fits physAddr src.length) :
    ∃ after, memory.memcpy (host.add (pageOffset physAddr).toNat) src = .ok after ∧
      after.bytes = memory.bytes.put physAddr
        (LittleEndian.fromBytes src.length fun i => src.getD i 0) := by
  -- The run ends in the page of the host pointer.
  have room : (pageOffset physAddr).toNat + src.length ≤ pageSize := by
    rw [toNat_pageOffset]
    exact fits
  have valid := PhysMemory.validPtr_of_page found room
  exact ⟨_, dif_pos valid, PhysMemory.bytes_store fits found _ valid⟩

/-- Writing zeros over the zeros at the start of a known page gives its host page. -/
theorem probe_ok (loading : Loading history loader memory)
    (known : loader.mapping (va / 4096#64) = some ppn)
    (blank : ∀ addr : VirtAddr, addr.toNat / 4096 = va.toNat / 4096 → addr.toNat % 4096 < 4 →
      loader.view memory addr = some 0) :
    ∃ host probed, memory.write (n := 4) (ppn * 4096#64) 0 = (⟨.ok, some host⟩, probed) ∧
      probed.ram.mapping (ppn * 4096#64) = some host ∧ Loading history loader probed ∧
      loader.view probed = loader.view memory := by
  have bounds := loading.bounds known
  have start := toNat_pageBase va
  have place : (ppn * 4096#64).toNat = ppn.toNat * 4096 := by
    rw [BitVec.toNat_mul, show (4096#64).toNat = 4096 from rfl]
    omega
  have base : pageBase (ppn * 4096#64) = ppn * 4096#64 := by
    rw [pageBase_eq_self_iff, place]
    omega
  -- The write of four bytes succeeds, as the page is there.
  have ok : (memory.write (n := 4) (ppn * 4096#64) 0).1.status = .ok := by
    rw [PhysMemory.write_status, PhysMemory.accessStatus_ok_iff, Fits, place]
    exact ⟨by omega, loading.hasPage known _ (by omega)⟩
  obtain ⟨bytes, ram, host, found, hostPage⟩ := PhysMemory.write_ok ok
  rw [base] at found
  -- The write is one at the start of the virtual page, where there are zeros.
  have vpn : pageBase va / 4096#64 = va / 4096#64 := by
    rw [div_page_eq_iff, start]
    omega
  have first : ppn * 4096#64 + pageBase va % 4096#64 = ppn * 4096#64 := by
    apply BitVec.eq_of_toNat_eq
    rw [toNat_inPage bounds.2.2, start, place]
    omega
  have knownBase : loader.mapping (pageBase va / 4096#64) = some ppn := by rw [vpn, known]
  have room : (pageBase va).toNat % 4096 + 4 ≤ 4096 := by
    rw [start]
    omega
  obtain ⟨probedLoading, seen⟩ := loading.view_put knownBase room
    (by rw [first]; exact bytes)
  -- The word that is written is zero, and so are the bytes under it.
  have zeros : ∀ addr, ByteStore.InRun (pageBase va) 4 addr →
      loader.view memory addr = some 0 := by
    intro addr within
    have range := (toNat_sub_lt_iff addr _ room).mp within
    exact blank addr (by omega) (by omega)
  rw [ByteStore.put_zero zeros] at seen
  refine ⟨host, _, ?_, by rw [ram]; exact found, probedLoading, seen⟩
  rw [← ok, ← hostPage]

/-- Copying a page's part of a segment overwrites the page with it from the offset on. -/
theorem copyPage_ok (loading : Loading history loader memory) {offset : BitVec 64}
    (known : loader.mapping ((seg.pVaddr + offset) / 4096#64) = some ppn)
    (left : offset.toNat < seg.pFilesz.toNat)
    (inFile : seg.pOffset.toNat + seg.pFilesz.toNat ≤ elfBuf.length)
    (blank : ∀ addr : VirtAddr, addr.toNat / 4096 = (seg.pVaddr + offset).toNat / 4096 →
      addr.toNat % 4096 < 4 → loader.view memory addr = some 0) :
    ∃ cpySize after, loader.copyPage elfBuf seg offset memory = .ok (cpySize, after) ∧
      cpySize.toNat = min (seg.pFilesz.toNat - offset.toNat)
        (4096 - (seg.pVaddr + offset).toNat % 4096) ∧
      Loading history loader after ∧
      loader.view after = (loader.view memory).overwrite (seg.pVaddr + offset)
        ((elfBuf.drop (seg.pOffset.toNat + offset.toNat)).take cpySize.toNat) := by
  -- The source computes the address once and uses it throughout.
  generalize place : seg.pVaddr + offset = currVa at known blank
  have bounds := loading.bounds known
  obtain ⟨host, probed, written, found, probedLoading, seen⟩ := loading.probe_ok known blank
  have start := toNat_inPage bounds.2.2 currVa
  have inPage := toNat_pageOffset currVa
  have leftover : (seg.pFilesz - offset).toNat = seg.pFilesz.toNat - offset.toNat :=
    BitVec.toNat_sub_of_le (Nat.le_of_lt left)
  have rest : (BitVec.ofNat 64 pageSize - pageOffset currVa).toNat = 4096 - currVa.toNat % 4096 := by
    rw [BitVec.toNat_sub_of_le, inPage]
    · rfl
    · rw [BitVec.le_def, inPage]
      exact Nat.le_of_lt (Nat.mod_lt _ (by decide))
  -- The part that is copied ends with the segment's bytes or with the page.
  obtain ⟨cpySize, chosen⟩ : ∃ cpySize, cpySize = if seg.pFilesz - offset <
    BitVec.ofNat 64 pageSize - pageOffset currVa then seg.pFilesz - offset else
      BitVec.ofNat 64 pageSize - pageOffset currVa := ⟨_, rfl⟩
  have size : cpySize.toNat =
      min (seg.pFilesz.toNat - offset.toNat) (4096 - currVa.toNat % 4096) := by
    rw [chosen]
    split <;> rename_i order <;> rw [BitVec.lt_def] at order <;> omega
  obtain ⟨src, taken⟩ : ∃ src, src =
    (elfBuf.drop (seg.pOffset.toNat + offset.toNat)).take cpySize.toNat := ⟨_, rfl⟩
  -- The file has all bytes of the segment.
  have length : src.length = cpySize.toNat := by
    rw [taken, List.length_take, List.length_drop]
    omega
  have fits : Fits (ppn * 4096#64 + currVa % 4096#64) src.length := by
    rw [Fits, start]
    omega
  -- The copy starts in the page that was written to.
  have base : pageBase (ppn * 4096#64 + currVa % 4096#64) = ppn * 4096#64 := by
    apply BitVec.eq_of_toNat_eq
    rw [toNat_pageBase, start, BitVec.toNat_mul, show (4096#64).toNat = 4096 from rfl]
    omega
  have position : (pageOffset (ppn * 4096#64 + currVa % 4096#64)).toNat =
      (pageOffset currVa).toNat := by
    rw [toNat_pageOffset, toNat_pageOffset, start]
    omega
  obtain ⟨after, copied, bytes⟩ := memcpy_ok (by rw [base]; exact found) fits
  rw [position] at copied
  obtain ⟨copiedLoading, view⟩ := probedLoading.view_put known (by rw [length]; omega) bytes
  rw [ByteStore.put_fromBytes, seen] at view
  refine ⟨cpySize, after, ?_, size, copiedLoading, by rw [view, taken]⟩
  -- The body is now a chain of tests that are all decided.
  rw [ElfLoader.copyPage]
  simp only [place, sub_pageOffset_div, known]
  rw [show ppn * BitVec.ofNat 64 pageSize = ppn * 4096#64 from rfl, written]
  simp only [← chosen, ← taken, length, ne_eq, not_true, if_false, if_true, copied]

/-- Copying from an offset on overwrites with the bytes that are left, when there is enough fuel. -/
theorem copySegment_ok (loading : Loading history loader memory)
    (inFile : seg.pOffset.toNat + seg.pFilesz.toNat ≤ elfBuf.length)
    (inside : seg.pVaddr.toNat + seg.pFilesz.toNat ≤ 0xffffffffffffffff)
    (known : ∀ addr : VirtAddr, seg.pVaddr.toNat ≤ addr.toNat →
      addr.toNat < seg.pVaddr.toNat + seg.pFilesz.toNat → (loader.mapping (addr / 4096#64)).isSome)
    (iterations : Nat) (offset : BitVec 64)
    (blank : ∀ addr : VirtAddr, offset.toNat < seg.pFilesz.toNat →
      (seg.pVaddr.toNat + offset.toNat) / 4096 ≤ addr.toNat / 4096 →
      addr.toNat / 4096 ≤ (seg.pVaddr.toNat + seg.pFilesz.toNat - 1) / 4096 →
      loader.view memory addr = some 0) :
    ∃ outcome, loader.copySegment elfBuf seg iterations offset memory = .ok outcome ∧
      (seg.pFilesz.toNat - offset.toNat < iterations → outcome.isSome) ∧
      ∀ after, outcome = some after → Loading history loader after ∧
        loader.view after = (loader.view memory).overwrite (seg.pVaddr + offset)
          ((elfBuf.drop (seg.pOffset.toNat + offset.toNat)).take
            (seg.pFilesz.toNat - offset.toNat)) := by
  -- The induction follows the loop, which copies the part of one page in each turn.
  induction iterations generalizing offset memory with
  | zero =>
    refine ⟨none, rfl, ?_, ?_⟩
    · -- Without fuel the loop has not ended.
      intro fuel
      omega
    · intro after never
      cases never
  | succ iterations ih =>
    by_cases left : offset.toNat < seg.pFilesz.toNat
    · have currVa : (seg.pVaddr + offset).toNat = seg.pVaddr.toNat + offset.toNat := by
        rw [BitVec.toNat_add]
        omega
      obtain ⟨ppn, page⟩ := Option.isSome_iff_exists.mp
        (known (seg.pVaddr + offset) (by omega) (by omega))
      -- The page is known, so a turn copies the bytes that it holds of the segment.
      obtain ⟨cpySize, copied, step, size, copiedLoading, view⟩ := loading.copyPage_ok page left
        inFile fun addr samePage _ => blank addr left (by omega) (by omega)
      rw [currVa] at size
      have progress : 0 < cpySize.toNat := by omega
      have next : (offset + cpySize).toNat = offset.toNat + cpySize.toNat := by
        rw [BitVec.toNat_add]
        omega
      -- The bytes end in this page, or the next page starts after those that were copied.
      have edge : (seg.pVaddr.toNat + (offset + cpySize).toNat) % 4096 = 0 ∨
          (offset + cpySize).toNat = seg.pFilesz.toNat := by omega
      -- The bytes are taken from the file, which has them all.
      have chunk : ((elfBuf.drop (seg.pOffset.toNat + offset.toNat)).take cpySize.toNat).length =
          cpySize.toNat := by
        rw [List.length_take, List.length_drop]
        omega
      -- The rest of the segment lies in later pages, which this turn leaves blank.
      have stillBlank : ∀ addr : VirtAddr, (offset + cpySize).toNat < seg.pFilesz.toNat →
          (seg.pVaddr.toNat + (offset + cpySize).toNat) / 4096 ≤ addr.toNat / 4096 →
          addr.toNat / 4096 ≤ (seg.pVaddr.toNat + seg.pFilesz.toNat - 1) / 4096 →
          loader.view copied addr = some 0 := by
        intro addr more lower upper
        have apart : ¬ByteStore.InRun (seg.pVaddr + offset)
            ((elfBuf.drop (seg.pOffset.toNat + offset.toNat)).take cpySize.toNat).length addr := by
          rw [chunk]
          intro within
          have range := (toNat_sub_lt_iff addr _ (by omega)).mp within
          omega
        rw [view, ByteStore.overwrite, if_neg apart]
        exact blank addr left (by omega) upper
      obtain ⟨outcome, ran, enough, spec⟩ := ih copiedLoading _ stillBlank
      refine ⟨outcome, ?_, fun fuel => enough (by omega), fun after same => ?_⟩
      · rw [ElfLoader.copySegment, if_pos (show offset < seg.pFilesz from left), step]
        exact ran
      · obtain ⟨afterLoading, afterView⟩ := spec after same
        refine ⟨afterLoading, ?_⟩
        -- The next turn starts behind the last byte that was copied.
        have reached : seg.pVaddr + (offset + cpySize) = seg.pVaddr + offset + BitVec.ofNat 64
            ((elfBuf.drop (seg.pOffset.toNat + offset.toNat)).take cpySize.toNat).length := by
          rw [chunk, BitVec.ofNat_toNat, BitVec.setWidth_eq, BitVec.add_assoc]
        rw [afterView, view, reached, ByteStore.overwrite_append]
        · rw [next, show seg.pFilesz.toNat - offset.toNat =
            cpySize.toNat + (seg.pFilesz.toNat - (offset.toNat + cpySize.toNat)) by omega,
            List.take_add, List.drop_drop, Nat.add_assoc]
        · rw [chunk, List.length_take]
          omega
    · -- The offset has reached the end of the bytes in the file.
      refine ⟨some memory, ?_, fun _ => rfl, fun after same => ?_⟩
      · rw [ElfLoader.copySegment, if_neg (show ¬offset < seg.pFilesz from left)]
      · cases same
        refine ⟨loading, ?_⟩
        rw [show seg.pFilesz.toNat - offset.toNat = 0 by omega, List.take_zero,
          ByteStore.overwrite_nil]

end Loading

end ElfLoader

end RiscvSim

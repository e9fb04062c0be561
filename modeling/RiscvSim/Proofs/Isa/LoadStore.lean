import RiscvSim.Proofs.Isa.Access
import RiscvSim.Proofs.Simulator.Tlb

/-! Loads and stores see the bytes behind the translation, whatever the translation caches hold. -/

namespace RiscvSim

open Rv64i
open PhysMemory (Fits)

/-- Entries other than empty ones hold the host page behind the translation of their tag. -/
def TLB.Agrees (mapping : PhysAddr → Option HostPtr)
    (translateVa : VirtAddr → Except Abort TranslateResult) (tlb : TLB) : Prop :=
  ∀ i, (tlb.entries i).virtAddr ≠ poisonVa →
    ∃ pa host, translateVa (tlb.entries i).virtAddr = .ok ⟨.ok, pa⟩ ∧
      mapping (pageBase pa) = some host ∧ (tlb.entries i).host = some host

namespace TLB.Agrees

variable {mapping : PhysAddr → Option HostPtr}
  {translateVa : VirtAddr → Except Abort TranslateResult} {tlb : TLB}

/-- A hit outside the page of empty entries is served by the translation. -/
theorem serves (agrees : tlb.Agrees mapping translateVa) (pagewise : Pagewise translateVa)
    {va : VirtAddr} (outside : pageBase va ≠ poisonVa) (hit : (tlb.find va).1 = true) :
    tlb.Serves mapping translateVa va := by
  -- The entry that is hit is tagged with the page of the address.
  have tag : pageBase va = (tlb.getEntry va).virtAddr := beq_iff_eq.mp hit
  obtain ⟨pa, host, translated, mapped, held⟩ := agrees (TLB.index va) (tag ▸ outside)
  rw [← TLB.getEntry, ← tag] at translated
  exact TLB.serves_of_entry pagewise translated mapped held

/-- Caching the host page of a translation keeps the entries in agreement. -/
theorem update (agrees : tlb.Agrees mapping translateVa) (pagewise : Pagewise translateVa)
    {va pa : VirtAddr} {host : HostPtr} (translated : translateVa va = .ok ⟨.ok, pa⟩)
    (mapped : mapping (pageBase pa) = some host) :
    (tlb.update va (some host)).Agrees mapping translateVa := by
  intro i used
  dsimp only [TLB.update] at used ⊢
  by_cases here : i = TLB.index va
  · -- The new entry is tagged with the page of the address.
    rw [here, Function.update_self, sub_pageOffset]
    refine ⟨pageBase pa, host, (pagewise.page_of translated).1, ?_, rfl⟩
    rw [pageBase_pageBase]
    exact mapped
  · rw [Function.update_of_ne here] at used ⊢
    exact agrees i used

end TLB.Agrees

/-- An access is aligned when its address is a multiple of its size. -/
theorem addrAlignMask_iff {n : Nat} (size : AccessSize n) (va : VirtAddr) :
    va &&& addrAlignMask n = 0 ↔ va.toNat % n = 0 := by
  have rest (k : Nat) (small : k ≤ 64) (mask : addrAlignMask n = Bits.lowMask 64 k) :
      va &&& addrAlignMask n = 0 ↔ va.toNat % 2 ^ k = 0 := by
    rw [mask, ← Bits.toNat_and_lowMask va k small]
    -- The masked bits are a remainder, which is zero with them.
    exact ⟨congrArg BitVec.toNat, fun zero => BitVec.eq_of_toNat_eq zero⟩
  -- Each size is a power of two.
  rcases size with rfl | rfl | rfl | rfl
  · exact rest 0 (by decide) rfl
  · exact rest 1 (by decide) rfl
  · exact rest 2 (by decide) rfl
  · exact rest 3 (by decide) rfl

/-- Loads have the sizes of accesses. -/
theorem accessSize_load (load : Load) : AccessSize load.bytes := by
  cases load <;> simp [AccessSize, Load.bytes]

/-- Stores have the sizes of accesses. -/
theorem accessSize_store (store : Store) : AccessSize store.bytes := by
  cases store <;> simp [AccessSize, Store.bytes]

namespace Simulator

/-- The translation caches agree with translation. -/
structure TlbsAgree (sim : Simulator) : Prop where
  read : sim.readTlb.Agrees sim.physMemory.ram.mapping (sim.translateVa .read)
  write : sim.writeTlb.Agrees sim.physMemory.ram.mapping (sim.translateVa .write)
  fetch : sim.fetchTlb.Agrees sim.physMemory.ram.mapping (sim.translateVa .fetch)

/-- What a load does, by the translation of its address and the bytes there. -/
inductive LoadOutcome (sim : Simulator) (load : Load) (rd : RegIdx) (va : VirtAddr) :
    Except Abort (Flow × Simulator) → Prop
  | unaligned : va.toNat % load.bytes ≠ 0 →
    LoadOutcome sim load rd va (.ok (.ret .simUnalignedLoad, sim))
  | aborted {why : Abort} : va.toNat % load.bytes = 0 → sim.translateVa .read va = .error why →
    LoadOutcome sim load rd va (.error why)
  | untranslated {status : SimStatus} {pa : PhysAddr} : va.toNat % load.bytes = 0 →
    sim.translateVa .read va = .ok ⟨status, pa⟩ → status ≠ .ok →
    LoadOutcome sim load rd va (.ok (.ret status, sim))
  | absent {pa : PhysAddr} : va.toNat % load.bytes = 0 →
    sim.translateVa .read va = .ok ⟨.ok, pa⟩ → ¬sim.physMemory.HasPage pa →
    LoadOutcome sim load rd va (.ok (.ret .physMemAccessFault, sim))
  /-- The extended bytes are written, and only the cache for loads may have changed beside. -/
  | loaded {pa : PhysAddr} (readTlb : TLB) : va.toNat % load.bytes = 0 →
    sim.translateVa .read va = .ok ⟨.ok, pa⟩ → sim.physMemory.HasPage pa →
    LoadOutcome sim load rd va (.ok (.next, retire { sim with readTlb := readTlb }
      (sim.regs.write rd (load.extend (sim.physMemory.bytes.get load.bytes pa))) (sim.pc + 4)))

/-- What a store does, by the translation of its address and the bytes there. -/
inductive StoreOutcome (sim : Simulator) (store : Store) (word : Word) (va : VirtAddr) :
    Except Abort (Flow × Simulator) → Prop
  | unaligned : va.toNat % store.bytes ≠ 0 →
    StoreOutcome sim store word va (.ok (.ret .simUnalignedStore, sim))
  | aborted {why : Abort} : va.toNat % store.bytes = 0 → sim.translateVa .write va = .error why →
    StoreOutcome sim store word va (.error why)
  | untranslated {status : SimStatus} {pa : PhysAddr} : va.toNat % store.bytes = 0 →
    sim.translateVa .write va = .ok ⟨status, pa⟩ → status ≠ .ok →
    StoreOutcome sim store word va (.ok (.ret status, sim))
  | absent {pa : PhysAddr} : va.toNat % store.bytes = 0 →
    sim.translateVa .write va = .ok ⟨.ok, pa⟩ → ¬sim.physMemory.HasPage pa →
    StoreOutcome sim store word va (.ok (.ret .physMemAccessFault, sim))
  /-- The low bytes are replaced, and only the cache for stores may have changed beside. -/
  | stored {pa : PhysAddr} (physMemory : PhysMemory) (writeTlb : TLB) :
    va.toNat % store.bytes = 0 → sim.translateVa .write va = .ok ⟨.ok, pa⟩ →
    sim.physMemory.HasPage pa → physMemory.ram = sim.physMemory.ram →
    physMemory.bytes = sim.physMemory.bytes.put pa (word.setWidth (8 * store.bytes)) →
    StoreOutcome sim store word va
      (.ok (.next, retire { sim with physMemory := physMemory, writeTlb := writeTlb }
        sim.regs (sim.pc + 4)))

variable {sim after : Simulator}

/-- An aligned access inside RAM succeeds. -/
theorem accessStatus_eq {n : Nat} (size : AccessSize n) {va pa : VirtAddr}
    (aligned : va.toNat % n = 0) (offset : pageOffset pa = pageOffset va) (present : Prop)
    [Decidable present] :
    PhysMemory.accessStatus present pa n = if present then .ok else .physMemAccessFault := by
  -- An aligned access stays in its page, before and after the translation.
  have fits := fits_of_aligned size ((addrAlignMask_iff size va).mpr aligned)
  have inside : Fits pa n := by
    unfold Fits at fits ⊢
    rwa [← toNat_pageOffset, offset, toNat_pageOffset]
  rw [PhysMemory.accessStatus, if_neg (not_not.mpr inside)]

/-- A load does what the translation and the bytes prescribe, on a hit and on a miss. -/
theorem TlbsAgree.loaded (agree : sim.TlbsAgree) (load : Load) (rd : RegIdx) {va : VirtAddr}
    (outside : pageBase va ≠ poisonVa) : LoadOutcome sim load rd va (sim.loaded load rd va) := by
  have size := accessSize_load load
  have pagewise := pagewise_translateVa sim .read
  by_cases aligned : va.toNat % load.bytes = 0
  · -- The cache changes only when the page behind the translation is there.
    obtain ⟨tlb, kept, same⟩ := loadInt_plain
      (fun tlb => tlb = sim.readTlb ∨
        ∃ pa, sim.translateVa .read va = .ok ⟨.ok, pa⟩ ∧ sim.physMemory.HasPage pa) size .read va
      (agree.read.serves pagewise outside) (.inl rfl)
      (fun pa host translated mapped => .inr ⟨pa, translated, by
        rw [PhysMemory.HasPage, mapped]
        rfl⟩)
    have unmasked := (addrAlignMask_iff size va).mpr aligned
    rw [Simulator.loaded, same, Plain.loadInt, if_neg (not_not.mpr unmasked), Plain.readInt,
      show sim.plain.translateVa LoadAccess.read.accessType va = sim.translateVa .read va from rfl]
    cases translated : sim.translateVa .read va with
    | error why => exact .aborted aligned translated
    | ok result =>
      obtain ⟨status, pa⟩ := result
      rw [translated] at kept
      by_cases ok : status = .ok
      · subst ok
        -- The translation keeps the offset in the page.
        have offset := (pagewise.page_of translated).2
        have read := PhysMemory.read_status (n := load.bytes) sim.physMemory pa 0
        rw [accessStatus_eq size aligned offset] at read
        dsimp only
        rw [if_neg (not_not.mpr rfl), show sim.plain.physMemory = sim.physMemory from rfl]
        -- The read succeeds with the bytes that are there.
        by_cases present : sim.physMemory.HasPage pa
        · rw [if_pos present] at read
          rw [if_neg (not_not.mpr read), (PhysMemory.read_ok read).1]
          exact .loaded tlb aligned translated present
        · rw [if_neg present] at read
          -- A page that is not there cannot have been cached.
          have unchanged : tlb = sim.readTlb := by
            rcases kept with same | ⟨_, found, page⟩
            · exact same
            · cases found
              exact absurd page present
          rw [if_pos (by rw [read]; decide), unchanged, read]
          exact .absent aligned translated present
      · -- A translation that failed caches nothing.
        have unchanged : tlb = sim.readTlb := by
          rcases kept with same | ⟨_, found, _⟩
          · exact same
          · cases found
            exact absurd rfl ok
        simp only [Except.map, if_pos ok]
        rw [unchanged]
        exact .untranslated aligned translated ok
  · -- An unaligned load touches neither cache nor memory.
    have masked := mt (addrAlignMask_iff size va).mp aligned
    rw [Simulator.loaded, Simulator.loadInt, if_pos masked]
    exact .unaligned aligned

/-- A store does what the translation and the bytes prescribe, on a hit and on a miss. -/
theorem TlbsAgree.stored (agree : sim.TlbsAgree) (store : Store) (word : Word) {va : VirtAddr}
    (outside : pageBase va ≠ poisonVa) :
    StoreOutcome sim store word va (sim.stored store word va) := by
  have size := accessSize_store store
  have pagewise := pagewise_translateVa sim .write
  by_cases aligned : va.toNat % store.bytes = 0
  · -- The cache changes only when the page behind the translation is there.
    obtain ⟨tlb, kept, same⟩ := storeInt_plain
      (fun tlb => tlb = sim.writeTlb ∨
        ∃ pa, sim.translateVa .write va = .ok ⟨.ok, pa⟩ ∧ sim.physMemory.HasPage pa) size va
      (word.setWidth (8 * store.bytes)) (agree.write.serves pagewise outside) (.inl rfl)
      (fun pa host translated mapped => .inr ⟨pa, translated, by
        rw [PhysMemory.HasPage, mapped]
        rfl⟩)
    have unmasked := (addrAlignMask_iff size va).mpr aligned
    rw [Simulator.stored, same, Plain.storeInt, if_neg (not_not.mpr unmasked),
      show sim.plain.translateVa .write va = sim.translateVa .write va from rfl]
    cases translated : sim.translateVa .write va with
    | error why => exact .aborted aligned translated
    | ok result =>
      obtain ⟨status, pa⟩ := result
      rw [translated] at kept
      by_cases ok : status = .ok
      · subst ok
        have offset := (pagewise.page_of translated).2
        have written := PhysMemory.write_status sim.physMemory pa
          (word.setWidth (8 * store.bytes))
        rw [accessStatus_eq size aligned offset] at written
        dsimp only
        rw [if_neg (not_not.mpr rfl), show sim.plain.physMemory = sim.physMemory from rfl]
        -- The write succeeds and replaces the bytes.
        by_cases present : sim.physMemory.HasPage pa
        · rw [if_pos present] at written
          obtain ⟨bytes, ram, _⟩ := PhysMemory.write_ok written
          rw [if_neg (not_not.mpr written)]
          exact .stored _ tlb aligned translated present ram bytes
        · rw [if_neg present] at written
          have unchanged : tlb = sim.writeTlb := by
            rcases kept with same | ⟨_, found, page⟩
            · exact same
            · cases found
              exact absurd page present
          rw [if_pos (by rw [written]; decide), unchanged, written]
          exact .absent aligned translated present
      · -- A translation that failed caches nothing.
        have unchanged : tlb = sim.writeTlb := by
          rcases kept with same | ⟨_, found, _⟩
          · exact same
          · cases found
            exact absurd rfl ok
        simp only [Except.map, if_pos ok]
        rw [unchanged]
        exact .untranslated aligned translated ok
  · -- An unaligned store touches neither cache nor memory.
    have masked := mt (addrAlignMask_iff size va).mp aligned
    rw [Simulator.stored, Simulator.storeInt, if_pos masked]
    exact .unaligned aligned

/-- After a load the translation caches agree with translation. -/
theorem TlbsAgree.of_loaded (agree : sim.TlbsAgree) {load : Load} {rd : RegIdx} {va : VirtAddr}
    (outside : pageBase va ≠ poisonVa) {flow : Flow}
    (result : sim.loaded load rd va = .ok (flow, after)) : after.TlbsAgree := by
  have pagewise := pagewise_translateVa sim .read
  obtain ⟨tlb, kept, same⟩ := loadInt_plain _ (accessSize_load load) .read va
    (agree.read.serves pagewise outside) agree.read
    (fun pa host translated mapped => agree.read.update pagewise translated mapped)
  rw [Simulator.loaded, same] at result
  -- Neither memory nor control registers change, and so translation does not.
  cases plain : sim.plain.loadInt load.bytes LoadAccess.read.accessType va with
  | error why =>
    rw [plain] at result
    cases result
  | ok res =>
    simp only [plain, Except.map] at result
    -- A load that failed leaves the registers, and both leave what translation reads.
    by_cases failed : res.status ≠ .ok
    · rw [if_pos failed] at result
      cases result
      exact ⟨kept, agree.write, agree.fetch⟩
    · rw [if_neg failed] at result
      cases result
      exact ⟨kept, agree.write, agree.fetch⟩

/-- No entry that a translation reads has a byte in a run. -/
def SparesTables (sim : Simulator) (pa : PhysAddr) (n : Nat) : Prop :=
  ∀ va, ∀ pte ∈ tableEntries sim.physMemory sim.hart.csrFile.satp64 va,
    ∀ addr, ByteStore.InRun pte pteBytes addr → ¬ByteStore.InRun pa n addr

/-- A store beside the tables keeps every translation. -/
theorem SparesTables.translateVa {pa : PhysAddr} {n : Nat} {physMemory : PhysMemory}
    {value : BitVec (8 * n)} (spares : sim.SparesTables pa n)
    (bytes : physMemory.bytes = sim.physMemory.bytes.put pa value) (writeTlb : TLB)
    (accessType : AccessType) :
    { sim with physMemory := physMemory, writeTlb := writeTlb }.translateVa accessType =
      sim.translateVa accessType := by
  funext va
  refine translate_congr _ va (fun pte member addr inside => ?_) _ _ _
  -- A byte of an entry is outside of the run that was stored.
  rw [bytes, ByteStore.put, if_neg (spares va pte member addr inside)]

/-- The translation caches agree with memory in which every translation is the same. -/
theorem TlbsAgree.of_memory (agree : sim.TlbsAgree) {physMemory : PhysMemory} {writeTlb : TLB}
    (ram : physMemory.ram = sim.physMemory.ram)
    (translation : ∀ accessType,
      { sim with physMemory := physMemory, writeTlb := writeTlb }.translateVa accessType =
        sim.translateVa accessType)
    (write : writeTlb.Agrees sim.physMemory.ram.mapping (sim.translateVa .write)) :
    TlbsAgree { sim with physMemory := physMemory, writeTlb := writeTlb } where
  read := by
    rw [ram, translation]
    exact agree.read
  write := by
    rw [ram, translation]
    exact write
  fetch := by
    rw [ram, translation]
    exact agree.fetch

/-- After a store beside the tables the translation caches agree with translation. -/
theorem TlbsAgree.of_stored (agree : sim.TlbsAgree) {store : Store} {word : Word} {va : VirtAddr}
    (outside : pageBase va ≠ poisonVa)
    (spares : ∀ pa, sim.translateVa .write va = .ok ⟨.ok, pa⟩ → sim.SparesTables pa store.bytes)
    {flow : Flow} (result : sim.stored store word va = .ok (flow, after)) : after.TlbsAgree := by
  have pagewise := pagewise_translateVa sim .write
  obtain ⟨tlb, kept, same⟩ := storeInt_plain _ (accessSize_store store) va
    (word.setWidth (8 * store.bytes)) (agree.write.serves pagewise outside) agree.write
    (fun pa host translated mapped => agree.write.update pagewise translated mapped)
  rw [Simulator.stored, same] at result
  cases plain : sim.plain.storeInt store.bytes va (word.setWidth (8 * store.bytes)) with
  | error why =>
    rw [plain] at result
    cases result
  | ok value =>
    obtain ⟨status, state⟩ := value
    simp only [plain, Except.map] at result
    rcases Plain.storeInt_ok plain with ⟨failed, same⟩ | ⟨ok, pa, translated, written, same⟩
    · -- A store that fails changes nothing that translation reads.
      rw [if_pos failed] at result
      cases same
      cases result
      exact ⟨agree.read, kept, agree.fetch⟩
    · rw [if_neg (not_not.mpr ok)] at result
      cases same
      cases result
      -- The tables are spared, so every address is translated as before.
      obtain ⟨bytes, ram, _⟩ := PhysMemory.write_ok written
      have agrees := agree.of_memory ram ((spares pa translated).translateVa bytes tlb) kept
      exact ⟨agrees.read, agrees.write, agrees.fetch⟩

/-- The address that a load or a store accesses. -/
def effective (sim : Simulator) (rs1 : RegIdx) (imm : BitVec 12) : VirtAddr :=
  sim.regs.value rs1 + imm.signExtend 64

/-- Loads and stores outside the page of empty entries do what the instruction set prescribes. -/
structure AccessesConform (sim : Simulator) : Prop where
  load : ∀ {instr : Instr} {load : Load} {rd rs1 : RegIdx} {imm : BitVec 12},
    instr.Represents (.load load rd rs1 imm) → pageBase (sim.effective rs1 imm) ≠ poisonVa →
    LoadOutcome sim load rd (sim.effective rs1 imm) (call sim instr)
  store : ∀ {instr : Instr} {store : Store} {rs1 rs2 : RegIdx} {imm : BitVec 12},
    instr.Represents (.store store rs1 rs2 imm) → pageBase (sim.effective rs1 imm) ≠ poisonVa →
    StoreOutcome sim store (sim.regs.value rs2) (sim.effective rs1 imm) (call sim instr)
  /-- The translation caches agree with translation afterwards. -/
  loadAgrees : ∀ {instr : Instr} {load : Load} {rd rs1 : RegIdx} {imm : BitVec 12} {flow : Flow}
    {after : Simulator}, instr.Represents (.load load rd rs1 imm) →
    pageBase (sim.effective rs1 imm) ≠ poisonVa → call sim instr = .ok (flow, after) →
    after.TlbsAgree
  storeAgrees : ∀ {instr : Instr} {store : Store} {rs1 rs2 : RegIdx} {imm : BitVec 12} {flow : Flow}
    {after : Simulator}, instr.Represents (.store store rs1 rs2 imm) →
    pageBase (sim.effective rs1 imm) ≠ poisonVa →
    (∀ pa, sim.translateVa .write (sim.effective rs1 imm) = .ok ⟨.ok, pa⟩ →
      sim.SparesTables pa store.bytes) →
    call sim instr = .ok (flow, after) → after.TlbsAgree
  /-- A load through any address sees what was stored to the same bytes through any other. -/
  sees : ∀ {instr : Instr} {store : Store} {rs1 rs2 : RegIdx} {imm : BitVec 12} {pa : PhysAddr}
    {after : Simulator}, instr.Represents (.store store rs1 rs2 imm) →
    pageBase (sim.effective rs1 imm) ≠ poisonVa →
    sim.translateVa .write (sim.effective rs1 imm) = .ok ⟨.ok, pa⟩ →
    sim.SparesTables pa store.bytes → call sim instr = .ok (.next, after) →
    ∀ {other : Instr} {load : Load} {rd base : RegIdx} {offset : BitVec 12} {seen : PhysAddr},
      other.Represents (.load load rd base offset) →
      pageBase (after.effective base offset) ≠ poisonVa →
      (after.effective base offset).toNat % load.bytes = 0 →
      after.translateVa .read (after.effective base offset) = .ok ⟨.ok, seen⟩ →
      (∃ i < load.bytes, ∃ j < store.bytes,
        seen + BitVec.ofNat 64 i = pa + BitVec.ofNat 64 j) →
      ∃ value final, call after other = .ok (.next, final) ∧
        final.regs = after.regs.write rd (load.extend value) ∧
        ∀ i < load.bytes, ∀ j < store.bytes, seen + BitVec.ofNat 64 i = pa + BitVec.ofNat 64 j →
          LittleEndian.byteAt value i =
            LittleEndian.byteAt ((sim.regs.value rs2).setWidth (8 * store.bytes)) j

/-- The page of an aligned access is that of each of its bytes. -/
theorem pageBase_add {n : Nat} (size : AccessSize n) {accessType : AccessType} {va pa : VirtAddr}
    (aligned : va.toNat % n = 0) (translated : sim.translateVa accessType va = .ok ⟨.ok, pa⟩)
    {i : Nat} (inside : i < n) : pageBase (pa + BitVec.ofNat 64 i) = pageBase pa := by
  have offset := ((pagewise_translateVa sim accessType).page_of translated).2
  -- The offset is that of the aligned address, which leaves room in the page.
  have fits := fits_of_aligned size ((addrAlignMask_iff size va).mpr aligned)
  have whole : Fits pa n := by
    unfold Fits at fits ⊢
    rwa [← toNat_pageOffset, offset, toNat_pageOffset]
  exact (PhysMemory.address_in_page whole inside).1

/-- An aligned load behind whose translation there is a page succeeds. -/
theorem LoadOutcome.of_present {load : Load} {rd : RegIdx} {va : VirtAddr} {pa : PhysAddr}
    {outcome : Except Abort (Flow × Simulator)} (result : LoadOutcome sim load rd va outcome)
    (aligned : va.toNat % load.bytes = 0) (translated : sim.translateVa .read va = .ok ⟨.ok, pa⟩)
    (present : sim.physMemory.HasPage pa) :
    ∃ final, outcome = .ok (.next, final) ∧ final.regs =
      sim.regs.write rd (load.extend (sim.physMemory.bytes.get load.bytes pa)) := by
  -- Every other outcome contradicts one of the three facts.
  cases result with
  | unaligned crooked => exact absurd aligned crooked
  | aborted _ failed => cases translated.symm.trans failed
  | untranslated _ other failed =>
    cases translated.symm.trans other
    exact absurd rfl failed
  | absent _ other missing =>
    cases translated.symm.trans other
    exact absurd present missing
  | loaded readTlb _ other _ =>
    cases translated.symm.trans other
    exact ⟨_, rfl, rfl⟩

/-- With agreeing translation caches, loads and stores conform. -/
theorem TlbsAgree.accessesConform (agree : sim.TlbsAgree) : sim.AccessesConform where
  load decoded outside := by
    rw [call_load sim decoded]
    exact agree.loaded _ _ outside
  store decoded outside := by
    rw [call_store sim decoded]
    exact agree.stored _ _ outside
  loadAgrees decoded outside result := by
    rw [call_load sim decoded] at result
    exact agree.of_loaded outside result
  storeAgrees decoded outside spares result := by
    rw [call_store sim decoded] at result
    exact agree.of_stored outside spares result
  sees {instr store rs1 rs2 imm pa after} decoded outside written spares result := by
    intro other load rd base offset seen represents apart aligned read overlap
    rw [call_store sim decoded] at result
    -- The store was beside the tables, so the caches agree afterwards.
    have later : after.TlbsAgree := agree.of_stored outside (fun _ found => by
      cases written.symm.trans found
      exact spares) result
    have before := agree.stored store (sim.regs.value rs2) outside
    rw [show sim.stored store (sim.regs.value rs2) (sim.effective rs1 imm) = .ok (.next, after)
      from result] at before
    -- The store replaced the bytes behind its translation.
    cases before with
    | stored physMemory writeTlb storeAligned translated present ram bytes =>
      cases written.symm.trans translated
      -- Every byte of the run was there before it was replaced.
      have whole : sim.physMemory.bytes.Present pa store.bytes := by
        intro k inside
        have page := pageBase_add (accessSize_store store) storeAligned translated inside
        rw [PhysMemory.isSome_bytes, PhysMemory.HasPage, page]
        exact present
      -- A common byte puts both accesses into one page.
      have there : physMemory.HasPage seen := by
        obtain ⟨i, covered, j, inside, same⟩ := overlap
        have left := pageBase_add (accessSize_load load) aligned read covered
        have right := pageBase_add (accessSize_store store) storeAligned translated inside
        rw [PhysMemory.HasPage, ram, ← left, same, right]
        exact present
      obtain ⟨final, called, regs⟩ := (later.loaded load rd apart).of_present aligned read there
      refine ⟨_, final, (call_load _ represents).trans called, regs, ?_⟩
      -- The byte that is seen is one that was put.
      intro i covered j inside same
      have small : store.bytes ≤ 2 ^ 64 := by cases store <;> decide
      change LittleEndian.byteAt (physMemory.bytes.get load.bytes seen) i = _
      rw [bytes]
      exact ByteStore.byteAt_get_put _ _ small whole inside covered same

/-- Before the first access the translation caches agree. -/
theorem tlbsAgree_of_empty (toCore : Core) (physMemory : PhysMemory) (bbCache : BbCache) :
    TlbsAgree { toCore := toCore, physMemory := physMemory, bbCache := bbCache } where
  read := fun _ used => absurd rfl used
  write := fun _ used => absurd rfl used
  fetch := fun _ used => absurd rfl used

/-- The simulator that a load of the double word at address 0x40 leaves. -/
def afterLoad : Simulator :=
  match call (holdingProgram 0) (Instr.decode 0x04003283) with
  | .ok (_, after) => after
  | .error _ => {}

/-- The load does not abort. -/
theorem call_afterLoad :
    ∃ flow, call (holdingProgram 0) (Instr.decode 0x04003283) = .ok (flow, afterLoad) := by
  have well : (call (holdingProgram 0) (Instr.decode 0x04003283)).toOption.isSome = true := by
    decide +kernel
  rw [afterLoad]
  cases called : call (holdingProgram 0) (Instr.decode 0x04003283) with
  | error why =>
    rw [called] at well
    cases well
  | ok result => exact ⟨result.1, rfl⟩

/-- A load that finds its page in the cache conforms, and so does a store to the same page. -/
theorem accessesConform_cached : (afterLoad.readTlb.find 0x40).1 = true ∧
    LoadOutcome afterLoad .ld 5 0x40 (call afterLoad (Instr.decode 0x04003283)) ∧
    StoreOutcome afterLoad .sd 0x2a 0x48 (call afterLoad (Instr.decode 0x04503423)) := by
  have load : (Instr.decode 0x04003283).Represents (.load .ld 5 0 0x40) :=
    ⟨by decide +kernel, by decide +kernel, by decide +kernel, by decide +kernel⟩
  have store : (Instr.decode 0x04503423).Represents (.store .sd 0 5 0x48) :=
    ⟨by decide +kernel, by decide +kernel, by decide +kernel, by decide +kernel⟩
  obtain ⟨flow, called⟩ := call_afterLoad
  -- The caches agree when they are empty, and the load keeps that.
  have before : (holdingProgram 0).TlbsAgree := tlbsAgree_of_empty _ _ _
  have agree : afterLoad.TlbsAgree :=
    before.accessesConform.loadAgrees load (by decide +kernel) called
  have loadVa : afterLoad.effective 0 0x40 = 0x40 := by decide +kernel
  have storeVa : afterLoad.effective 0 0x48 = 0x48 := by decide +kernel
  have value : afterLoad.regs.value 5 = 0x2a := by decide +kernel
  have loaded := agree.accessesConform.load load (by rw [loadVa]; decide)
  have stored := agree.accessesConform.store store (by rw [storeVa]; decide)
  rw [loadVa] at loaded
  rw [storeVa, value] at stored
  exact ⟨by decide +kernel, loaded, stored⟩

end Simulator

end RiscvSim

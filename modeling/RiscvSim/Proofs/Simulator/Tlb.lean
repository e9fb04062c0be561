import RiscvSim.Simulator.Plain
import RiscvSim.Proofs.Memory.Mmu64
import RiscvSim.Proofs.Simulator.Failure

/-! Translation caches that agree with the tables serve the same accesses as translation. -/

namespace RiscvSim

open PhysMemory (Fits)

/-- A translation of addresses that treats each page as a whole. -/
def Pagewise (translateVa : VirtAddr → Except Abort TranslateResult) : Prop :=
  ∀ va, translateVa va = (translateVa (pageBase va)).map (·.advance (pageOffset va)) ∧
    ∀ pa, translateVa (pageBase va) = .ok ⟨.ok, pa⟩ → pageBase pa = pa

/-- An aligned access does not cross its page. -/
theorem fits_of_aligned {n : Nat} {va : VirtAddr} (size : AccessSize n)
    (aligned : va &&& addrAlignMask n = 0) : Fits va n := by
  have rest (k : Nat) (small : k ≤ 64) (mask : addrAlignMask n = Bits.lowMask 64 k) :
      va.toNat % 2 ^ k = 0 := by
    rw [← Bits.toNat_and_lowMask va k small, ← mask, aligned]
    rfl
  -- The size divides the address and the page.
  unfold Fits
  rcases size with rfl | rfl | rfl | rfl
  · omega
  · have := rest 1 (by decide) rfl
    omega
  · have := rest 2 (by decide) rfl
    omega
  · have := rest 3 (by decide) rfl
    omega

/-- An offset moves a page address inside its page. -/
theorem page_add_offset {page : PhysAddr} (aligned : pageBase page = page) (va : VirtAddr) :
    pageBase (page + pageOffset va) = page ∧
      pageOffset (page + pageOffset va) = pageOffset va := by
  have start := (pageBase_eq_self_iff page).mp aligned
  have bound := page.isLt
  have sum : (page + pageOffset va).toNat = page.toNat + va.toNat % 4096 := by
    rw [BitVec.toNat_add, toNat_pageOffset]
    omega
  constructor
  · -- The page starts at a multiple of its size, so the sum stays in it.
    apply BitVec.eq_of_toNat_eq
    rw [toNat_pageBase, sum]
    omega
  · apply BitVec.eq_of_toNat_eq
    rw [toNat_pageOffset, toNat_pageOffset, sum]
    omega

/-- The source computes a page address by subtracting the offset. -/
theorem sub_pageOffset (va : VirtAddr) : va - pageOffset va = pageBase va := by
  rw [BitVec.sub_eq_iff_eq_add, pageBase_add_pageOffset]

namespace Pagewise

variable {translateVa : VirtAddr → Except Abort TranslateResult}

/-- The translation of an address from that of its page. -/
theorem of_page (pagewise : Pagewise translateVa) {va pa : VirtAddr}
    (found : translateVa (pageBase va) = .ok ⟨.ok, pa⟩) :
    translateVa va = .ok ⟨.ok, pa + pageOffset va⟩ ∧ pageBase (pa + pageOffset va) = pa ∧
      pageOffset (pa + pageOffset va) = pageOffset va := by
  refine ⟨?_, page_add_offset ((pagewise va).2 pa found) va⟩
  -- The translation of the page is advanced by the offset.
  rw [(pagewise va).1, found]
  rfl

/-- The translation of a page from that of an address in it. -/
theorem page_of (pagewise : Pagewise translateVa) {va pa : VirtAddr}
    (found : translateVa va = .ok ⟨.ok, pa⟩) :
    translateVa (pageBase va) = .ok ⟨.ok, pageBase pa⟩ ∧ pageOffset pa = pageOffset va := by
  rw [(pagewise va).1] at found
  -- The translation of an address is that of its page, advanced.
  cases whole : translateVa (pageBase va) with
  | error why =>
    rw [whole] at found
    cases found
  | ok result =>
    rw [whole] at found
    obtain ⟨status, page⟩ := result
    by_cases ok : status = .ok
    · subst ok
      simp only [Except.map, TranslateResult.advance, if_true, Except.ok.injEq,
        TranslateResult.mk.injEq, true_and] at found
      obtain ⟨base, offset⟩ := page_add_offset ((pagewise va).2 page whole) va
      rw [← found, base, offset]
      exact ⟨rfl, rfl⟩
    · -- A failed translation is not advanced.
      simp only [Except.map, TranslateResult.advance, if_neg ok, Except.ok.injEq,
        TranslateResult.mk.injEq] at found
      exact absurd found.1 ok

end Pagewise

/-- An entry is empty, or it holds the host page behind the physical page of its tag. -/
def TLBEntry.Coherent (mapping : PhysAddr → Option HostPtr)
    (translateVa : VirtAddr → Except Abort TranslateResult) (e : TLBEntry) : Prop :=
  e.virtAddr = poisonVa ∧ e.host = none ∨
    pageBase e.virtAddr = e.virtAddr ∧ ∃ pa host, translateVa e.virtAddr = .ok ⟨.ok, pa⟩ ∧
      mapping (pageBase pa) = some host ∧ e.host = some host

namespace TLB

/-- Every entry of a cache is coherent. -/
def Coherent (mapping : PhysAddr → Option HostPtr)
    (translateVa : VirtAddr → Except Abort TranslateResult) (tlb : TLB) : Prop :=
  ∀ i, (tlb.entries i).Coherent mapping translateVa

variable {mapping : PhysAddr → Option HostPtr}
  {translateVa : VirtAddr → Except Abort TranslateResult} {tlb : TLB}

/-- The entry for an address gives the host address behind its translation. -/
def Serves (mapping : PhysAddr → Option HostPtr)
    (translateVa : VirtAddr → Except Abort TranslateResult) (tlb : TLB) (va : VirtAddr) : Prop :=
  ∃ pa host, translateVa va = .ok ⟨.ok, pa⟩ ∧ pageOffset pa = pageOffset va ∧
    mapping (pageBase pa) = some host ∧ (tlb.find va).2 = some (host.add (pageOffset pa).toNat)

/-- An entry that holds the host page behind its tag serves the addresses of the page. -/
theorem serves_of_entry (pagewise : Pagewise translateVa) {va pa : VirtAddr} {host : HostPtr}
    (translated : translateVa (pageBase va) = .ok ⟨.ok, pa⟩)
    (mapped : mapping (pageBase pa) = some host) (held : (tlb.getEntry va).host = some host) :
    tlb.Serves mapping translateVa va := by
  obtain ⟨here, base, offset⟩ := pagewise.of_page translated
  refine ⟨_, host, here, offset, ?_, ?_⟩
  · rw [base, ← (pagewise va).2 pa translated]
    exact mapped
  · simp [TLB.find, held, offset]

/-- An empty cache is coherent. -/
theorem coherent_empty : TLB.Coherent mapping translateVa {} := fun _ => .inl ⟨rfl, rfl⟩

/-- A hit gives the host address behind the translation, unless it hits an empty entry. -/
theorem Coherent.find (coherent : tlb.Coherent mapping translateVa)
    (pagewise : Pagewise translateVa) {va : VirtAddr} (hit : (tlb.find va).1 = true) :
    pageBase va = poisonVa ∧ (tlb.find va).2 = none ∨ tlb.Serves mapping translateVa va := by
  have tag : pageBase va = (tlb.getEntry va).virtAddr := beq_iff_eq.mp hit
  rcases coherent (index va) with ⟨poison, host⟩ | ⟨_, pa, host, translated, mapped, held⟩
  · -- An empty entry has the tag that no page has, except for one.
    exact .inl ⟨tag.trans poison, by simp [TLB.find, getEntry, host]⟩
  · -- An entry that is not empty was filled for the page of its tag.
    rw [← getEntry, ← tag] at translated
    exact .inr (serves_of_entry pagewise translated mapped held)

/-- Caching the host page of a translation keeps a cache coherent. -/
theorem Coherent.update (coherent : tlb.Coherent mapping translateVa)
    (pagewise : Pagewise translateVa) {va pa : VirtAddr} {host : HostPtr}
    (translated : translateVa va = .ok ⟨.ok, pa⟩) (mapped : mapping (pageBase pa) = some host) :
    (tlb.update va (some host)).Coherent mapping translateVa := by
  intro i
  dsimp only [TLB.update]
  -- The new entry holds the page of the address.
  by_cases here : i = index va
  · rw [here, Function.update_self, sub_pageOffset]
    refine .inr ⟨pageBase_pageBase va, pageBase pa, host, (pagewise.page_of translated).1, ?_, rfl⟩
    rw [pageBase_pageBase]
    exact mapped
  · -- All other entries are the old ones.
    rw [Function.update_of_ne here]
    exact coherent i

/-- Coherence depends on the translations of the tags alone. -/
theorem Coherent.congr {other : VirtAddr → Except Abort TranslateResult}
    (coherent : tlb.Coherent mapping translateVa) (same : ∀ va, other va = translateVa va) :
    tlb.Coherent mapping other := by
  rwa [show other = translateVa from funext same]

end TLB

namespace PhysMemory

variable {memory : PhysMemory} {n : Nat} {physAddr : PhysAddr} {host : HostPtr}

/-- A read inside a page that is there loads from its host page. -/
theorem read_page (fits : Fits physAddr n)
    (found : memory.ram.mapping (pageBase physAddr) = some host) (dst : BitVec (8 * n)) :
    memory.read physAddr dst =
      ⟨.ok, some host, memory.load n (host.add (pageOffset physAddr).toNat)⟩ := by
  simp only [read, crosses_iff, if_neg (not_not.mpr fits), RAM.getHostPagePtr, found]

/-- A write inside a page that is there stores to its host page. -/
theorem write_page (fits : Fits physAddr n)
    (found : memory.ram.mapping (pageBase physAddr) = some host)
    (valid : memory.ValidPtr (host.add (pageOffset physAddr).toNat) n) (value : BitVec (8 * n)) :
    memory.write physAddr value =
      (⟨.ok, some host⟩, memory.store (host.add (pageOffset physAddr).toNat) value valid) := by
  unfold write
  -- The two ways to find the host page are the same look-up.
  rw [dif_neg (by rw [crosses_iff]; exact not_not.mpr fits)]
  split
  · rename_i other same
    have : some other = some host := same.symm.trans found
    cases this
    rfl
  · rename_i missing
    cases missing.symm.trans found

end PhysMemory

/-- A store on a plain machine changes nothing, or it replaces bytes behind a translation. -/
theorem Plain.storeInt_ok {n : Nat} {plain after : Plain} {va : VirtAddr} {value : BitVec (8 * n)}
    {status : SimStatus} (stored : plain.storeInt n va value = .ok (status, after)) :
    status ≠ .ok ∧ after = plain ∨
      status = .ok ∧ ∃ pa, plain.translateVa .write va = .ok ⟨.ok, pa⟩ ∧
        (plain.physMemory.write pa value).1.status = .ok ∧
        after = { plain with physMemory := (plain.physMemory.write pa value).2 } := by
  unfold Plain.storeInt at stored
  -- An unaligned store is refused by both, before anything is translated.
  by_cases aligned : va &&& addrAlignMask n = 0
  · rw [if_neg (not_not.mpr aligned)] at stored
    cases translated : plain.translateVa .write va with
    | error why =>
      rw [translated] at stored
      cases stored
    | ok result =>
      obtain ⟨mmuStatus, pa⟩ := result
      rw [translated] at stored
      dsimp only at stored
      -- Both the translation and the write report a failure without a change.
      by_cases ok : mmuStatus = .ok
      · subst ok
        rw [if_neg (not_not.mpr rfl)] at stored
        by_cases there : (plain.physMemory.write (n := n) pa value).1.status = .ok
        · rw [if_neg (not_not.mpr there)] at stored
          cases stored
          exact .inr ⟨rfl, pa, rfl, there, rfl⟩
        · rw [if_pos there] at stored
          cases stored
          exact .inl ⟨there, rfl⟩
      · rw [if_pos ok] at stored
        cases stored
        exact .inl ⟨ok, rfl⟩
  · rw [if_pos aligned] at stored
    cases stored
    exact .inl ⟨by decide, rfl⟩

namespace Simulator

/-- Translation in the current privilege level treats each page as a whole. -/
theorem pagewise_translateVa (sim : Simulator) (accessType : AccessType) :
    Pagewise (sim.translateVa accessType) :=
  fun va => translate_page _ _ _ _ va

/-- The translation caches agree with the tables in memory. -/
structure TlbsCoherent (sim : Simulator) : Prop where
  read : sim.readTlb.Coherent sim.physMemory.ram.mapping (sim.translateVa .read)
  write : sim.writeTlb.Coherent sim.physMemory.ram.mapping (sim.translateVa .write)
  fetch : sim.fetchTlb.Coherent sim.physMemory.ram.mapping (sim.translateVa .fetch)

/-- A simulator during an instruction, beside a plain machine in the same state.

The caches still agree with the tables from before the instruction.
-/
structure Tracks (before : Simulator) (good : PhysMemory → Prop) (sim : Simulator)
    (plain : Plain) : Prop where
  plain : sim.plain = plain
  ram : sim.physMemory.ram = before.physMemory.ram
  good : good sim.physMemory
  bbCache : sim.bbCache = before.bbCache
  csrFile : sim.hart.csrFile = before.hart.csrFile
  read : sim.readTlb.Coherent before.physMemory.ram.mapping (before.translateVa .read)
  write : sim.writeTlb.Coherent before.physMemory.ram.mapping (before.translateVa .write)
  fetch : sim.fetchTlb.Coherent before.physMemory.ram.mapping (before.translateVa .fetch)

variable {before sim after : Simulator} {plain : Plain} {good : PhysMemory → Prop}
  {excused : Abort → Prop}

/-- Before an instruction the caches agree with the tables. -/
theorem TlbsCoherent.tracks (coherent : sim.TlbsCoherent) (start : good sim.physMemory) :
    Tracks sim good sim sim.plain where
  plain := rfl
  ram := rfl
  good := start
  bbCache := rfl
  csrFile := rfl
  read := coherent.read
  write := coherent.write
  fetch := coherent.fetch

/-- Registers may change on both sides, except for the control registers. -/
theorem sameCore_tracks : SameCore (Tracks before good) where
  core tracks := by
    rw [← tracks.plain]
    rfl
  setCore {left right} tracks core csrFile :=
    -- The memory and the caches are the same ones, so coherence carries over.
    { plain := by rw [← tracks.plain]; rfl
      ram := tracks.ram
      good := tracks.good
      bbCache := tracks.bbCache
      csrFile := by
        have kept := tracks.csrFile
        rw [← tracks.plain] at csrFile
        exact csrFile.trans kept
      read := tracks.read
      write := tracks.write
      fetch := tracks.fetch }

/-- The cache that serves a load is coherent. -/
theorem Tracks.getReadTLB (tracks : Tracks before good sim plain) (access : LoadAccess) :
    (sim.getReadTLB access).Coherent before.physMemory.ram.mapping
      (before.translateVa access.accessType) := by
  cases access with
  | read => exact tracks.read
  | fetch => exact tracks.fetch

/-- Replacing the cache that serves a load by a coherent one changes nothing else. -/
theorem Tracks.setReadTLB (tracks : Tracks before good sim plain) {tlb : TLB}
    {access : LoadAccess} (coherent : tlb.Coherent before.physMemory.ram.mapping
      (before.translateVa access.accessType)) :
    Tracks before good (sim.setReadTLB tlb access) plain := by
  cases access with
  | read =>
    exact ⟨tracks.plain, tracks.ram, tracks.good, tracks.bbCache, tracks.csrFile, coherent,
      tracks.write, tracks.fetch⟩
  | fetch =>
    exact ⟨tracks.plain, tracks.ram, tracks.good, tracks.bbCache, tracks.csrFile, tracks.read,
      tracks.write, coherent⟩

/-- Putting a cache back changes nothing. -/
theorem setReadTLB_getReadTLB (sim : Simulator) (access : LoadAccess) :
    sim.setReadTLB (sim.getReadTLB access) access = sim := by
  cases access <;> rfl

/-- A load does what it does on a plain machine, when a hit gives the translated page.

Only the cache that serves it changes, and only by caching a translation.
-/
theorem loadInt_plain (kept : TLB → Prop) {n : Nat} (size : AccessSize n) (access : LoadAccess)
    (va : VirtAddr)
    (serves : ((sim.getReadTLB access).find va).1 = true → (sim.getReadTLB access).Serves
      sim.physMemory.ram.mapping (sim.translateVa access.accessType) va)
    (start : kept (sim.getReadTLB access))
    (update : ∀ pa host, sim.translateVa access.accessType va = .ok ⟨.ok, pa⟩ →
      sim.physMemory.ram.mapping (pageBase pa) = some host →
      kept ((sim.getReadTLB access).update va (some host))) :
    ∃ tlb, kept tlb ∧ sim.loadInt n access va =
      (sim.plain.loadInt n access.accessType va).map fun res =>
        (res, sim.setReadTLB tlb access) := by
  have same := sim.setReadTLB_getReadTLB access
  have translation : sim.plain.translateVa access.accessType va =
      sim.translateVa access.accessType va := rfl
  unfold Simulator.loadInt Plain.loadInt
  -- The checks of the two loads are taken in step.
  by_cases aligned : va &&& addrAlignMask n = 0
  · rw [if_neg (not_not.mpr aligned), if_neg (not_not.mpr aligned), Plain.readInt, translation]
    have fits := fits_of_aligned size aligned
    dsimp only
    by_cases hit : ((sim.getReadTLB access).find va).1 = true
    · -- The cached page is the one behind the translation.
      obtain ⟨pa, host, translated, offset, mapped, held⟩ := serves hit
      have inside : Fits pa n := by
        unfold Fits at fits ⊢
        rwa [← toNat_pageOffset, offset, toNat_pageOffset]
      have valid : sim.physMemory.ValidPtr (host.add (pageOffset pa).toNat) n :=
        PhysMemory.validPtr_of_page mapped (by rw [toNat_pageOffset]; exact inside)
      refine ⟨_, start, ?_⟩
      rw [if_pos hit, held, same, translated]
      dsimp only
      rw [if_pos valid, show sim.plain.physMemory = sim.physMemory from rfl,
        PhysMemory.read_page inside mapped]
      rfl
    · rw [if_neg hit]
      cases translated : sim.translateVa access.accessType va with
      | error why => exact ⟨_, start, rfl⟩
      | ok result =>
        obtain ⟨status, pa⟩ := result
        dsimp only
        by_cases ok : status = .ok
        · subst ok
          rw [if_neg (not_not.mpr rfl), if_neg (not_not.mpr rfl),
            show sim.plain.physMemory = sim.physMemory from rfl]
          by_cases there : (sim.physMemory.read (n := n) pa 0).status = .ok
          · -- The host page of a successful read is cached.
            obtain ⟨_, host, mapped, held⟩ := PhysMemory.read_ok there
            refine ⟨_, update pa host translated mapped, ?_⟩
            rw [if_neg (not_not.mpr there), if_neg (not_not.mpr there), held]
            rfl
          · refine ⟨_, start, ?_⟩
            rw [if_pos there, if_pos there, same]
            rfl
        · refine ⟨_, start, ?_⟩
          rw [if_pos ok, if_pos ok, same]
          rfl
  · -- An unaligned load is refused before the cache is asked.
    refine ⟨_, start, ?_⟩
    rw [if_pos aligned, if_pos aligned, same]
    rfl

/-- A store does what it does on a plain machine, when a hit gives the translated page.

Beside memory only the cache for stores changes, and only by caching a translation.
-/
theorem storeInt_plain (kept : TLB → Prop) {n : Nat} (size : AccessSize n) (va : VirtAddr)
    (value : BitVec (8 * n))
    (serves : (sim.writeTlb.find va).1 = true → sim.writeTlb.Serves
      sim.physMemory.ram.mapping (sim.translateVa .write) va)
    (start : kept sim.writeTlb)
    (update : ∀ pa host, sim.translateVa .write va = .ok ⟨.ok, pa⟩ →
      sim.physMemory.ram.mapping (pageBase pa) = some host →
      kept (sim.writeTlb.update va (some host))) :
    ∃ tlb, kept tlb ∧ sim.storeInt n va value =
      (sim.plain.storeInt n va value).map fun result =>
        (result.1, { sim with physMemory := result.2.physMemory, writeTlb := tlb }) := by
  have translation : sim.plain.translateVa .write va = sim.translateVa .write va := rfl
  have memory : sim.plain.physMemory = sim.physMemory := rfl
  unfold Simulator.storeInt Plain.storeInt
  -- The two stores are compared check by check, as the loads were.
  by_cases aligned : va &&& addrAlignMask n = 0
  · rw [if_neg (not_not.mpr aligned), if_neg (not_not.mpr aligned), translation]
    have fits := fits_of_aligned size aligned
    dsimp only
    by_cases hit : (sim.writeTlb.find va).1 = true
    · -- The cached page is the one behind the translation.
      obtain ⟨pa, host, translated, offset, mapped, held⟩ := serves hit
      have inside : Fits pa n := by
        unfold Fits at fits ⊢
        rwa [← toNat_pageOffset, offset, toNat_pageOffset]
      have valid : sim.physMemory.ValidPtr (host.add (pageOffset pa).toNat) n :=
        PhysMemory.validPtr_of_page mapped (by rw [toNat_pageOffset]; exact inside)
      refine ⟨_, start, ?_⟩
      rw [if_pos hit, held, translated]
      simp only [memory, PhysMemory.write_page inside mapped valid value, dif_pos valid]
      rfl
    · rw [if_neg hit]
      cases translated : sim.translateVa .write va with
      | error why => exact ⟨_, start, rfl⟩
      | ok result =>
        obtain ⟨status, pa⟩ := result
        dsimp only
        by_cases ok : status = .ok
        · subst ok
          rw [memory, if_neg (not_not.mpr rfl), if_neg (not_not.mpr rfl)]
          by_cases there : (sim.physMemory.write (n := n) pa value).1.status = .ok
          · -- The host page of a successful write is cached.
            obtain ⟨_, _, host, mapped, held⟩ := PhysMemory.write_ok there
            refine ⟨_, update pa host translated mapped, ?_⟩
            rw [if_neg (not_not.mpr there), if_neg (not_not.mpr there), held]
            rfl
          · refine ⟨_, start, ?_⟩
            rw [if_pos there, if_pos there]
            rfl
        · refine ⟨_, start, ?_⟩
          rw [if_pos ok, if_pos ok]
          rfl
  · -- An unaligned store is refused in both.
    refine ⟨_, start, ?_⟩
    rw [if_pos aligned, if_pos aligned]
    rfl

/-- A load through a coherent cache does what translation and memory do. -/
theorem Tracks.loadInt (tracks : Tracks before good sim plain) (now : sim.plain = before.plain)
    {n : Nat} (size : AccessSize n) (access : LoadAccess) (va : VirtAddr)
    (sentinel : pageBase va = poisonVa → excused .invalidPointer) :
    Lifted (Tracks before good) excused (sim.loadInt n access va)
      ((plain.loadInt n access.accessType va).map fun res => (res, plain)) := by
  cases now.symm.trans tracks.plain
  have translation : sim.translateVa access.accessType = before.translateVa access.accessType :=
    congrArg (fun state : Plain => state.translateVa access.accessType) now
  have coherent := tracks.getReadTLB access
  have pagewise := pagewise_translateVa before access.accessType
  by_cases empty : ((sim.getReadTLB access).find va).1 = true ∧ pageBase va = poisonVa ∧
      ((sim.getReadTLB access).find va).2 = none
  · -- An empty entry serves no access but those that are refused before.
    obtain ⟨hit, poison, empty⟩ := empty
    unfold Simulator.loadInt Plain.loadInt
    by_cases aligned : va &&& addrAlignMask n = 0
    · rw [if_neg (not_not.mpr aligned), if_neg (not_not.mpr aligned)]
      dsimp only
      rw [if_pos hit, empty]
      exact .excused _ (sentinel poison)
    · rw [if_pos aligned, if_pos aligned]
      exact .ok tracks
  · -- Otherwise a hit serves the translated page, and a miss caches it.
    obtain ⟨tlb, kept, same⟩ := loadInt_plain _ size access va
      (fun hit => by
        rw [tracks.ram, translation]
        exact (coherent.find pagewise hit).resolve_left fun none => empty ⟨hit, none⟩)
      coherent
      (fun pa host translated mapped => by
        rw [translation] at translated
        rw [tracks.ram] at mapped
        exact coherent.update pagewise translated mapped)
    -- The cache may have changed, and the plain machine has no cache.
    rw [same, now]
    cases before.plain.loadInt n access.accessType va with
    | error why => exact .error why
    | ok res => exact .ok (tracks.setReadTLB kept)

/-- A store through a coherent cache does what translation and memory do. -/
theorem Tracks.storeInt (tracks : Tracks before good sim plain) (now : sim.plain = before.plain)
    {n : Nat} (size : AccessSize n) (va : VirtAddr) (value : BitVec (8 * n))
    (sentinel : pageBase va = poisonVa → excused .invalidPointer)
    (keeps : ∀ pa, before.translateVa .write va = .ok ⟨.ok, pa⟩ →
      (before.physMemory.write pa value).1.status = .ok →
      good (before.physMemory.write pa value).2) :
    Lifted (Tracks before good) excused (sim.storeInt n va value)
      (plain.storeInt n va value) := by
  cases now.symm.trans tracks.plain
  have translation : sim.translateVa .write = before.translateVa .write :=
    congrArg (fun state : Plain => state.translateVa .write) now
  have pagewise := pagewise_translateVa before .write
  by_cases empty : (sim.writeTlb.find va).1 = true ∧ pageBase va = poisonVa ∧
      (sim.writeTlb.find va).2 = none
  · -- An empty entry serves no access but those that are refused before.
    obtain ⟨hit, poison, empty⟩ := empty
    unfold Simulator.storeInt Plain.storeInt
    by_cases aligned : va &&& addrAlignMask n = 0
    · rw [if_neg (not_not.mpr aligned), if_neg (not_not.mpr aligned)]
      dsimp only
      rw [if_pos hit, empty]
      exact .excused _ (sentinel poison)
    · rw [if_pos aligned, if_pos aligned]
      exact .ok tracks
  · -- A hit serves the translated page, as for a load.
    obtain ⟨tlb, kept, same⟩ := storeInt_plain _ size va value
      (fun hit => by
        rw [tracks.ram, translation]
        exact (tracks.write.find pagewise hit).resolve_left fun none => empty ⟨hit, none⟩)
      tracks.write
      (fun pa host translated mapped => by
        rw [translation] at translated
        rw [tracks.ram] at mapped
        exact tracks.write.update pagewise translated mapped)
    rw [same, now]
    cases stored : before.plain.storeInt n va value with
    | error why => exact .error why
    | ok result =>
      obtain ⟨status, after⟩ := result
      have core : sim.toCore = before.toCore := congrArg Plain.toCore now
      -- A store that failed leaves the memory, and one that succeeded replaces bytes.
      rcases Plain.storeInt_ok stored with ⟨_, same⟩ | ⟨_, pa, translated, written, same⟩
      · cases same
        have memory : sim.physMemory = before.plain.physMemory := congrArg Plain.physMemory now
        exact .ok ⟨by simp [Simulator.plain, core], rfl, memory ▸ tracks.good, tracks.bbCache,
          tracks.csrFile, tracks.read, kept, tracks.fetch⟩
      · cases same
        exact .ok ⟨by simp [Simulator.plain, core],
          (PhysMemory.write_ok written).2.1, keeps pa translated written,
          tracks.bbCache, tracks.csrFile, tracks.read, kept, tracks.fetch⟩

/-- With coherent caches, a handler does what it does on a plain machine. -/
theorem TlbsCoherent.exec (coherent : sim.TlbsCoherent) (start : good sim.physMemory)
    {handler : Handler} (sized : handler.Sized) (instr : Instr)
    (sentinel : ∀ va, handler.dataVa sim.toCore instr = some va → pageBase va = poisonVa →
      excused .invalidPointer)
    (keeps : ∀ n va pa (value : BitVec (8 * n)), handler = .store n →
      handler.dataVa sim.toCore instr = some va → sim.translateVa .write va = .ok ⟨.ok, pa⟩ →
      (sim.physMemory.write pa value).1.status = .ok → good (sim.physMemory.write pa value).2) :
    Lifted (Tracks sim good) excused (handler.exec sim instr) (handler.exec sim.plain instr) := by
  -- The state before the instruction is its own plain machine.
  have tracks := coherent.tracks start
  refine handler.exec_lifted sameCore_tracks instr tracks ?_ ?_
  · rintro n widen va rfl here
    exact tracks.loadInt rfl sized .read va (sentinel va here)
  · rintro n va value rfl here
    exact tracks.storeInt rfl sized va value (sentinel va here) fun pa => keeps n va pa value rfl here

/-- Caches that agree with the tables before an instruction agree with the same tables after it. -/
theorem Tracks.coherent (tracks : Tracks before good sim plain)
    (same : ∀ accessType va, sim.translateVa accessType va = before.translateVa accessType va) :
    sim.TlbsCoherent where
  -- The pages in RAM are the same, and so are the translations.
  read := by
    rw [tracks.ram]
    exact tracks.read.congr (same .read)
  write := by
    rw [tracks.ram]
    exact tracks.write.congr (same .write)
  fetch := by
    rw [tracks.ram]
    exact tracks.fetch.congr (same .fetch)

/-- Fetching a word keeps track of a plain machine that stays where it is. -/
theorem Tracks.fetch_word (tracks : Tracks before good sim before.plain) {va next : VirtAddr}
    {res : FetchResult} (fetched : Simulator.fetch (va, sim) = .ok (res, next, after)) :
    Tracks before good after before.plain := by
  unfold Simulator.fetch at fetched
  dsimp only at fetched
  split at fetched
  · cases fetched
  · rename_i loaded
    cases fetched
    -- The plain machine loads the same word, and only the cache has moved.
    have lifted : Lifted (Tracks before good) (fun _ => True) _ _ :=
      tracks.loadInt tracks.plain (.inr (.inr (.inl rfl))) .fetch va fun _ => trivial
    rw [loaded] at lifted
    obtain ⟨right, same, kept⟩ := lifted.of_ok
    cases found : before.plain.loadInt 4 LoadAccess.fetch.accessType va with
    | error why =>
      rw [found] at same
      cases same
    | ok value =>
      rw [found] at same
      cases same
      exact kept

/-- Looking up a block keeps the translation caches coherent. -/
theorem TlbsCoherent.findBb (coherent : sim.TlbsCoherent) {bb : Bb}
    (found : sim.findBb = .ok (bb, after)) : after.TlbsCoherent := by
  unfold Simulator.findBb at found
  dsimp only at found
  split at found
  · split at found
    · cases found
    · rename_i updated
      cases found
      -- The fetches of a block leave the plain machine where it is.
      obtain ⟨_, tracks⟩ := Bb.update_keeps
        (k := fun state => Tracks sim (fun _ => True) state.2 sim.plain)
        (fun state res later start fetched => start.fetch_word fetched)
        (coherent.tracks trivial) updated
      have kept := tracks.coherent fun accessType va =>
        congrArg (fun state : Plain => state.translateVa accessType va) tracks.plain
      exact ⟨kept.read, kept.write, kept.fetch⟩
  · cases found
    exact coherent

end Simulator

end RiscvSim

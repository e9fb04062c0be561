import RiscvSim.Proofs.Memory.Mapper
import RiscvSim.Proofs.Memory.Mmu64
import Mathlib.Data.Nat.ModEq

/-! Over any history of mappings, translation finds exactly the pages that were mapped. -/

namespace RiscvSim

/-- A call of the builder and the status it returned. -/
structure MapCall where
  flags : PTEFlags
  vpn : VPN
  ppn : PPN
  status : SimStatus
  deriving DecidableEq, Repr

namespace MapCall

/-- The mapping that a call asks for. -/
def mapping (call : MapCall) : MemoryMapping := MemoryMapping.new call.flags call.vpn call.ppn

/-- The number that selects the entries of a call's page. -/
def key (levels : Nat) (call : MapCall) : Nat := call.vpn.toNat % 512 ^ levels

end MapCall

/-- The flags of a mapping give an entry of a leaf that admits an access. -/
def admits (mstatus64 : MSTATUS64) (privLevel : PrivLevel) (accessType : AccessType)
    (flags : PTEFlags) : Bool :=
  (flags.r || flags.x) && !(flags.w && !flags.r) &&
    checkLeafFlags privLevel accessType flags (mstatus64.mxr ≠ 0) (mstatus64.sum ≠ 0)

/-- A builder and a memory that a history of calls leads to, the newest call first. -/
inductive Built (mode : ModeValue) (first last : PPN) :
    List MapCall → SimpleMemoryMapper → PhysMemory → Prop where
  | new {memory mapper built} :
      SimpleMemoryMapper.new memory mode first last = .ok (mapper, built) →
      Built mode first last [] mapper built
  | map {history mapper memory after} (call : MapCall) :
      Built mode first last history mapper memory →
      mapper.map memory call.mapping = .ok (call.status, after) →
      Built mode first last (call :: history) after.1 after.2
  /-- Anything else may happen to memory as long as it leaves the region alone. -/
  | other {history mapper memory} (after : PhysMemory) :
      Built mode first last history mapper memory →
      (∀ addr, mapper.InRegion addr → after.bytes addr = memory.bytes addr) →
      Built mode first last history mapper after

/-- The mapping of each key after a history of calls. -/
def mappedBy (levels : Nat) : List MapCall → Nat → Option MemoryMapping
  | [] => fun _ => none
  | call :: earlier =>
    if call.status = .ok
    then Function.update (mappedBy levels earlier) (call.key levels) (some call.mapping)
    else mappedBy levels earlier

/-- A mapped key was mapped by a successful call. -/
theorem mem_of_mappedBy {levels : Nat} {history : List MapCall} {key : Nat}
    {mapping : MemoryMapping} (mapped : mappedBy levels history key = some mapping) :
    ∃ call ∈ history, call.status = .ok ∧ call.key levels = key ∧ call.mapping = mapping := by
  -- By induction on the history, the newest call either set the key or left it as it was.
  induction history with
  | nil => cases mapped
  | cons call earlier ih =>
    rw [mappedBy] at mapped
    split at mapped
    · rename_i ok
      by_cases same : key = call.key levels
      · rw [same, Function.update_self] at mapped
        exact ⟨call, by simp, ok, same.symm, Option.some.inj mapped⟩
      · rw [Function.update_of_ne same] at mapped
        obtain ⟨other, member, rest⟩ := ih mapped
        exact ⟨other, by simp [member], rest⟩
    · -- A call that failed maps nothing.
      obtain ⟨other, member, rest⟩ := ih mapped
      exact ⟨other, by simp [member], rest⟩

/-- The key of the address of a page is the low part of its number. -/
theorem vpnKey_vpn {levels : Nat} (shallow : levels ≤ 5) (vpn : VPN) :
    vpnKey levels (vpn * BitVec.ofNat 64 pageSize) = vpn.toNat % 512 ^ levels := by
  -- The page number loses its top bits in the address, and the key needs at most 45 of the rest.
  have room : (512 : Nat) ^ levels ∣ 2 ^ 52 := by
    rw [show (512 : Nat) = 2 ^ 9 from rfl, ← Nat.pow_mul]
    exact Nat.pow_dvd_pow 2 (by omega)
  have page : (vpn * BitVec.ofNat 64 pageSize).toNat / 4096 = vpn.toNat % 2 ^ 52 := by
    rw [BitVec.toNat_mul, BitVec.toNat_ofNat, pageSize, pageBitSize]
    omega
  rw [vpnKey, page, Nat.mod_mod_of_dvd _ room]

/-- The top table serves every key. -/
theorem keyPrefix_top {levels : Nat} (va : VirtAddr) (positive : 0 < levels) :
    RadixTables.keyPrefix 512 (vpnKey levels va) (levels - 1) = 0 := by
  rw [RadixTables.keyPrefix, show levels - 1 + 1 = levels by omega, vpnKey]
  -- The key has no digit above the top level.
  exact Nat.div_eq_of_lt (Nat.mod_lt _ (Nat.pow_pos (by decide)))

/-- Table pages that were added hold zeros, and the other bytes stay. -/
theorem bytes_addTablePages {memory built : PhysMemory} {tablePpn : PPN} {count : Nat}
    (small : tablePpn.toNat + count ≤ 2 ^ 44)
    (result : SimpleMemoryMapper.addTablePages memory tablePpn count = .ok built)
    (addr : PhysAddr) :
    built.bytes addr =
      if tablePpn.toNat ≤ addr.toNat / 4096 ∧ addr.toNat / 4096 < tablePpn.toNat + count
      then some 0 else memory.bytes addr := by
  -- By induction on the number of pages, the first is added and then the rest.
  induction count generalizing memory tablePpn with
  | zero =>
    cases result
    rw [if_neg (by omega)]
  | succ count ih =>
    have number : (SimpleMemoryMapper.pageAddr tablePpn).toNat = tablePpn.toNat * 4096 := by
      rw [SimpleMemoryMapper.pageAddr, BitVec.toNat_mul, BitVec.toNat_ofNat, pageSize, pageBitSize]
      omega
    obtain ⟨added, step, bytes, _⟩ := memory.addRAMPage_eq
      (SimpleMemoryMapper.pageAddr tablePpn) (by rw [pageBase_eq_self_iff]; omega)
    -- The source stops with an error when the page is there already.
    rw [SimpleMemoryMapper.addTablePages, step] at result
    simp only [Bool.not_eq_true', decide_eq_false_iff_not] at result
    split at result
    · rename_i missing
      have next : (tablePpn + 1).toNat = tablePpn.toNat + 1 := by
        rw [BitVec.toNat_add]
        exact Nat.mod_eq_of_lt (by simp; omega)
      have page : pageBase addr = SimpleMemoryMapper.pageAddr tablePpn ↔
          addr.toNat / 4096 = tablePpn.toNat := by
        rw [← BitVec.toNat_inj, toNat_pageBase, number]
        omega
      rw [ih (by omega) result, next, bytes, ByteStore.extend]
      by_cases here : addr.toNat / 4096 = tablePpn.toNat
      · -- The page was not there before, so its bytes are the zeros that were put.
        have absent : memory.bytes addr = none := by
          rw [← Option.not_isSome_iff_eq_none, PhysMemory.isSome_bytes, PhysMemory.HasPage,
            page.mpr here]
          rwa [PhysMemory.HasPage, show pageBase (SimpleMemoryMapper.pageAddr tablePpn) =
            SimpleMemoryMapper.pageAddr tablePpn by rw [pageBase_eq_self_iff]; omega] at missing
        rw [if_neg (by omega), if_pos (page.mpr here), absent, if_pos (by omega)]
        rfl
      · -- Other pages are left to the induction hypothesis.
        rw [if_neg (mt page.mp here)]
        exact if_congr (by omega) rfl rfl
    · cases result

variable {mode : ModeValue} {first last : PPN} {levels : Nat} {history : List MapCall}
  {mapper : SimpleMemoryMapper} {memory : PhysMemory}

/-- An entry of a page of zeros is zero. -/
theorem entry_of_zeros {bytes : ByteStore 64} {t d : Nat} (small : t < 2 ^ 44)
    (inside : d < 512) (zeros : ∀ addr, addr.toNat / 4096 = t → bytes addr = some 0) :
    entry bytes t d = 0 := by
  -- Two words with the same bytes are equal.
  refine LittleEndian.eq_of_byteAt (n := pteBytes) fun i position => ?_
  have place := toNat_entryAddr small inside
  have width : i < 8 := position
  have sum := toNat_add_in_page (BitVec.ofNat 64 (t * 4096 + d * 8)) (i := i) (by omega)
  rw [entry, ByteStore.byteAt_get _ _ position, zeros _ (by omega)]
  exact (LittleEndian.byteAt_zero (n := pteBytes) i).symm

/-- A new builder represents no mapping. -/
theorem represents_new {built : PhysMemory} (small : last.toNat ≤ 2 ^ 44)
    (levelsOk : 0 < levels ∧ levels ≤ 5)
    (result : SimpleMemoryMapper.new memory mode first last = .ok (mapper, built)) :
    mapper.mode = mode ∧ mapper.tableRegionBegin = first ∧ mapper.tableRegionEnd = last ∧
      ∃ tables, Represents levels mapper tables (fun _ => none) built := by
  unfold SimpleMemoryMapper.new at result
  split at result
  · rename_i order
    split at result
    · cases result
    · rename_i added pages
      obtain ⟨rfl, rfl⟩ := Prod.mk.inj (Except.ok.inj result)
      have order : first.toNat < last.toNat := order
      -- The subtraction of the two page numbers does not wrap, as the order was checked.
      have count : (last - first).toNat = last.toNat - first.toNat :=
        BitVec.toNat_sub_of_le (Nat.le_of_lt order)
      have bytes := bytes_addTablePages (by omega) pages
      rw [count, show first.toNat + (last.toNat - first.toNat) = last.toNat by omega] at bytes
      have next : (first + 1).toNat = first.toNat + 1 := by
        rw [BitVec.toNat_add]
        exact Nat.mod_eq_of_lt (by simp; omega)
      refine ⟨rfl, rfl, rfl, fun i p => if i + 1 = levels ∧ p = 0 then some first.toNat else none,
        ?_, small, levelsOk.2, fun t lower upper => ?_⟩
      · -- The root is the only table, and all of its entries are zero.
        rw [next]
        refine RadixTables.Holds.initial 512 linkTo levelsOk.1 order fun t d lower upper inside => ?_
        dsimp only at lower upper
        refine entry_of_zeros (by omega) inside fun addr here => ?_
        rw [bytes, if_pos (by omega)]
      · -- The pages of the region are exactly those that were added.
        dsimp only at lower upper
        rw [← PhysMemory.isSome_bytes, bytes, if_pos]
        · rfl
        · rw [BitVec.toNat_ofNat]
          omega
  · cases result

/-- The root is the table of every key at the top level. -/
theorem Represents.root {tables : RadixTables.Tables} {mapped : Nat → Option MemoryMapping}
    (represents : Represents levels mapper tables mapped memory) (va : VirtAddr) :
    tables (levels - 1) (RadixTables.keyPrefix 512 (vpnKey levels va) (levels - 1)) =
      some mapper.tableRegionBegin.toNat := by
  rw [keyPrefix_top _ represents.holds.shape.top.1]
  exact represents.holds.shape.top.2

/-- A call for a page outside the region writes entries from the root downwards. -/
theorem map_eq (translating : modeToLevels mapper.mode = .ok levels) {mapping : MemoryMapping}
    (outside : ¬(mapper.tableRegionBegin ≤ mapping.ppn ∧ mapping.ppn < mapper.tableRegionEnd)) :
    mapper.map memory mapping = .ok (SimpleMemoryMapper.mapFrom mapping
      (mapping.vpn * BitVec.ofNat 64 pageSize) (levels - 1)
      (BitVec.ofNat 64 mapper.tableRegionBegin.toNat) mapper memory) := by
  rw [SimpleMemoryMapper.map, if_neg outside, translating, BitVec.ofNat_toNat, BitVec.setWidth_eq]

/-- A call of a builder is refused for a page of the region, and otherwise maps its key or not. -/
theorem map_step {tables : RadixTables.Tables} {mapped : Nat → Option MemoryMapping}
    (represents : Represents levels mapper tables mapped memory)
    (translating : modeToLevels mapper.mode = .ok levels) (mapping : MemoryMapping) :
    ∃ result, mapper.map memory mapping = .ok result ∧
      if mapper.tableRegionBegin ≤ mapping.ppn ∧ mapping.ppn < mapper.tableRegionEnd
      then result = (.mapperTableRegionPageMapped, mapper, memory)
      else MapStep levels mapping (mapping.vpn.toNat % 512 ^ levels) tables mapped mapper memory
        result := by
  by_cases refused : mapper.tableRegionBegin ≤ mapping.ppn ∧ mapping.ppn < mapper.tableRegionEnd
  · exact ⟨_, if_pos refused, by rw [if_pos refused]⟩
  · refine ⟨_, map_eq translating refused, ?_⟩
    rw [if_neg refused, ← vpnKey_vpn represents.shallow]
    exact mapFrom_step mapping _ represents (represents.root _)

/-- A call for a key that is not mapped succeeds while there is room for the missing tables. -/
theorem map_ok {tables : RadixTables.Tables} {mapped : Nat → Option MemoryMapping}
    (represents : Represents levels mapper tables mapped memory)
    (translating : modeToLevels mapper.mode = .ok levels) (mapping : MemoryMapping)
    (outside : ¬(mapper.tableRegionBegin ≤ mapping.ppn ∧ mapping.ppn < mapper.tableRegionEnd))
    (unmapped : mapped (mapping.vpn.toNat % 512 ^ levels) = none) {j : Nat}
    (present : (tables j
      (RadixTables.keyPrefix 512 (mapping.vpn.toNat % 512 ^ levels) j)).isSome)
    (room : mapper.currTable.toNat + j < mapper.tableRegionEnd.toNat) :
    ∃ after, mapper.map memory mapping = .ok (.ok, after) ∧
      MapStep levels mapping (mapping.vpn.toNat % 512 ^ levels) tables mapped mapper memory
        (.ok, after) := by
  obtain ⟨⟨status, after⟩, result, step⟩ := map_step represents translating mapping
  rw [if_neg outside] at step
  have decided := step.status
  rw [unmapped] at decided
  rcases decided with ok | ⟨_, full⟩
  · subst ok
    exact ⟨after, result, step⟩
  · -- A full region would have taken more tables than were missing.
    have growth := step.growth j present
    rw [full] at growth
    omega

/-- The state of a builder is that of a forest with the mappings of its history. -/
theorem Built.represents (built : Built mode first last history mapper memory)
    (small : last.toNat ≤ 2 ^ 44) (translating : modeToLevels mode = .ok levels)
    (levelsOk : 0 < levels ∧ levels ≤ 5) :
    mapper.mode = mode ∧ mapper.tableRegionBegin = first ∧ mapper.tableRegionEnd = last ∧
      ∃ tables, Represents levels mapper tables (mappedBy levels history) memory := by
  -- By induction on the history, each call changes the forest as its step says.
  induction built with
  | new result => exact represents_new small levelsOk result
  | other after built same ih =>
    obtain ⟨sameMode, sameFirst, sameLast, tables, represents⟩ := ih
    exact ⟨sameMode, sameFirst, sameLast, tables, represents.congr_bytes same⟩
  | map call built result ih =>
    obtain ⟨sameMode, sameFirst, sameLast, tables, represents⟩ := ih
    obtain ⟨other, same, step⟩ := map_step represents (by rwa [sameMode]) call.mapping
    rw [result] at same
    cases same
    split at step
    · -- A page of the region is refused at once.
      obtain ⟨status, rfl⟩ := Prod.mk.inj step
      rw [mappedBy, if_neg (by rw [status]; decide)]
      exact ⟨sameMode, sameFirst, sameLast, tables, represents⟩
    · -- The builder went through its tables, which grew along the key of the call.
      obtain ⟨after, _, _, grown⟩ := step.represents
      have kept := step.kept
      refine ⟨by rw [kept]; exact sameMode, by rw [kept]; exact sameFirst,
        by rw [kept]; exact sameLast, after, ?_⟩
      rw [mappedBy]
      exact grown

/-- A successful call maps its key for the rest of the history. -/
theorem Built.mappedBy_of_mem (built : Built mode first last history mapper memory)
    (small : last.toNat ≤ 2 ^ 44) (translating : modeToLevels mode = .ok levels)
    (levelsOk : 0 < levels ∧ levels ≤ 5) {call : MapCall} (member : call ∈ history)
    (ok : call.status = .ok) :
    mappedBy levels history (call.key levels) = some call.mapping := by
  -- By induction on the history, no later call takes the key away from the call.
  induction built with
  | new result => cases member
  | other after built same ih => exact ih member
  | map newest built result ih =>
    obtain ⟨sameMode, _, _, tables, represents⟩ := built.represents small translating levelsOk
    obtain ⟨other, same, step⟩ := map_step represents (by rwa [sameMode]) newest.mapping
    rw [result] at same
    cases same
    rw [mappedBy]
    -- The call is the newest one, which has just set its key.
    rcases List.mem_cons.mp member with rfl | old
    · rw [if_pos ok, Function.update_self]
    · by_cases newestOk : newest.status = .ok
      · -- A successful call found its key unmapped, so it is not the key of an earlier one.
        rw [if_pos newestOk, Function.update_of_ne, ih old]
        intro same
        split at step
        · rw [newestOk] at step
          cases (Prod.mk.inj step).1
        · have status := step.status
          rw [show newest.mapping.vpn.toNat % 512 ^ levels = newest.key levels from rfl, ← same,
            ih old, newestOk] at status
          cases status
      · -- A newest call that failed changes no key.
        rw [if_neg newestOk]
        exact ih old

/-- Whether an access is admitted depends on the permissions alone. -/
theorem checkLeafFlags_congr {left right : PTEFlags}
    (same : left.r = right.r ∧ left.w = right.w ∧ left.x = right.x ∧ left.u = right.u)
    (privLevel : PrivLevel) (accessType : AccessType) (mxr sum : Bool) :
    checkLeafFlags privLevel accessType left mxr sum =
      checkLeafFlags privLevel accessType right mxr sum := by
  obtain ⟨r, w, x, u⟩ := same
  simp only [checkLeafFlags, r, w, x, u]

/-- The lowest level adds the page offset to the page of the entry. -/
theorem calcPhysAddr_leaf (mapping : MemoryMapping) (small : mapping.ppn.toNat < 2 ^ 44)
    (va : VirtAddr) :
    calcPhysAddr (leafPTE mapping) va 0 = mapping.ppn * 4096#64 + va % 4096#64 := by
  have ppn := ptePpn_createPTE mapping.flags small
  have offset : (getBitField 11 0 va).toNat = _ :=
    toNat_getBitField va (by decide) (by omega) (by omega)
  -- The page number is read back whole, as it has at most 44 bits.
  rw [ptePpn] at ppn
  simp only [calcPhysAddr, leafPTE, Nat.zero_mul, Nat.add_zero, ppn, pageBitSize]
  have low : (getBitField 11 0 va).toNat = va.toNat % 4096 := by rw [offset]; simp
  rw [BitVec.add_comm]
  apply BitVec.eq_of_toNat_eq
  simp only [BitVec.toNat_add, BitVec.toNat_shiftLeft, BitVec.toNat_mul, BitVec.toNat_umod,
    BitVec.toNat_ofNat, Nat.shiftLeft_eq, Nat.reduceSub, low]

/-- A mapping ends a walk unless its flags are those of no leaf. -/
theorem leafWalk_some (mapping : MemoryMapping) :
    leafWalk (some mapping) =
      if (mapping.flags.r || mapping.flags.x) && !(mapping.flags.w && !mapping.flags.r)
      then .leaf 0 (leafPTE mapping) else .fault .mmu64PageFault := by
  obtain ⟨v, _, _⟩ := mapping.default_flags
  simp only [leafWalk, leafPTE, pteMalformed_createPTE, pteIsLeaf_createPTE, v]
  -- Only the readable, writable and executable flags decide the shape of an entry.
  by_cases r : mapping.flags.r = true <;> by_cases w : mapping.flags.w = true <;> simp [r, w]

/-- Translation answers by the mapping of the address's key. -/
theorem translate_eq {tables : RadixTables.Tables} {mapped : Nat → Option MemoryMapping}
    (represents : Represents levels mapper tables mapped memory)
    (translating : modeToLevels mode = .ok levels) (asid : BitVec 16) (mstatus64 : MSTATUS64)
    (privLevel : PrivLevel) (accessType : AccessType) (va : VirtAddr) :
    translate memory mstatus64 ⟨mode, asid, mapper.tableRegionBegin⟩ privLevel accessType va =
      .ok (match mapped (vpnKey levels va) with
        | none => ⟨.mmu64PageFault, 0⟩
        | some mapping =>
          if admits mstatus64 privLevel accessType mapping.flags
          then ⟨.ok, calcPhysAddr (leafPTE mapping) va 0⟩ else ⟨.mmu64PageFault, 0⟩) := by
  -- The walk starts from the root, which serves every key.
  have walked := represents.walk_eq va (represents.root va)
  have bare : mode ≠ .bare := by
    rintro rfl
    cases translating
  simp only [BitVec.ofNat_toNat, BitVec.setWidth_eq] at walked
  simp only [translate, if_neg bare, translating, walked]
  cases found : mapped (vpnKey levels va) with
  | none => rfl
  | some mapping =>
    obtain ⟨_, a, d⟩ := mapping.default_flags
    rw [leafWalk_some]
    -- The walk checks the shape of the flags, and the leaf check comes after it.
    by_cases shape : ((mapping.flags.r || mapping.flags.x) &&
        !(mapping.flags.w && !mapping.flags.r)) = true
    · rw [if_pos shape]
      by_cases allowed : checkLeafFlags privLevel accessType mapping.flags
          -- A new mapping carries the accessed and dirty flags, so only the permissions count.
          (decide (mstatus64.mxr ≠ 0)) (decide (mstatus64.sum ≠ 0)) = true
      · have admitted : admits mstatus64 privLevel accessType mapping.flags = true := by
          rw [admits, shape, allowed]
          rfl
        simp only [if_pos admitted, leafPTE, ofPTE_createPTE, allowed, a, d]
        rfl
      · have refused : ¬admits mstatus64 privLevel accessType mapping.flags = true := by
          rw [admits, shape]
          exact allowed
        simp only [if_neg refused, leafPTE, ofPTE_createPTE]
        rw [if_pos (by simpa using allowed)]
    · have refused : ¬admits mstatus64 privLevel accessType mapping.flags = true := by
        intro admitted
        rw [admits, Bool.and_eq_true] at admitted
        exact shape admitted.1
      simp only [if_neg shape, if_neg refused]

/-- The admitted accesses depend on the permissions alone. -/
theorem admits_mapping (call : MapCall) (mstatus64 : MSTATUS64) (privLevel : PrivLevel)
    (accessType : AccessType) :
    admits mstatus64 privLevel accessType call.mapping.flags =
      admits mstatus64 privLevel accessType call.flags := by
  have same := MemoryMapping.new_flags call.flags call.vpn call.ppn
  have leaf := checkLeafFlags_congr same privLevel accessType
  obtain ⟨r, w, x, u⟩ := same
  simp only [admits, MapCall.mapping, r, w, x, leaf]

/-- Translation finds exactly the pages of the successful calls, which no later call replaces. -/
theorem Built.translate_iff_mapped (built : Built mode first last history mapper memory)
    (translating : modeToLevels mode = .ok levels) (small : last.toNat ≤ 2 ^ 44)
    (ppns : ∀ call ∈ history, call.ppn.toNat < 2 ^ 44) :
    (∀ (asid : BitVec 16) (mstatus64 : MSTATUS64) (privLevel : PrivLevel)
        (accessType : AccessType) (va : VirtAddr),
      (∀ call ∈ history, call.status = .ok →
        call.vpn.toNat ≡ va.toNat / 4096 [MOD 2 ^ (9 * levels)] →
        admits mstatus64 privLevel accessType call.flags = true →
        translate memory mstatus64 ⟨mode, asid, first⟩ privLevel accessType va =
          .ok ⟨.ok, call.ppn * 4096#64 + va % 4096#64⟩) ∧
      ((¬∃ call ∈ history, call.status = .ok ∧
          call.vpn.toNat ≡ va.toNat / 4096 [MOD 2 ^ (9 * levels)] ∧
          admits mstatus64 privLevel accessType call.flags = true) →
        translate memory mstatus64 ⟨mode, asid, first⟩ privLevel accessType va =
          .ok ⟨.mmu64PageFault, 0⟩)) ∧
    ∀ (flags : PTEFlags) (vpn : VPN) (ppn : PPN), ¬(first ≤ ppn ∧ ppn < last) →
      ∃ status after, mapper.map memory (MemoryMapping.new flags vpn ppn) = .ok (status, after) ∧
        (status = .mapperAlreadyMapped ↔ ∃ call ∈ history, call.status = .ok ∧
          call.vpn.toNat ≡ vpn.toNat [MOD 2 ^ (9 * levels)]) := by
  have levelsOk := modeToLevels_bounds translating
  obtain ⟨sameMode, rfl, rfl, tables, represents⟩ := built.represents small translating levelsOk
  have radix : (512 : Nat) ^ levels = 2 ^ (9 * levels) := (Nat.pow_mul 2 9 levels).symm
  refine ⟨fun asid mstatus64 privLevel accessType va => ⟨?_, ?_⟩, ?_⟩
  · -- An admitted access to a mapped page finds the page of the call.
    intro call member ok same admitted
    have key : call.key levels = vpnKey levels va := by
      rw [MapCall.key, vpnKey, radix]
      exact same
    have mapped := built.mappedBy_of_mem small translating levelsOk member ok
    rw [translate_eq represents translating, ← key, mapped]
    simp only [admits_mapping, if_pos admitted]
    rw [calcPhysAddr_leaf _ (ppns call member)]
    rfl
  · -- Without a call that admits the access, nothing or a leaf that refuses it is found.
    intro unmapped
    rw [translate_eq represents translating]
    cases found : mappedBy levels history (vpnKey levels va) with
    | none => rfl
    | some mapping =>
      obtain ⟨call, member, ok, key, rfl⟩ := mem_of_mappedBy found
      -- The call that mapped the page does not admit the access.
      have refused : ¬admits mstatus64 privLevel accessType call.flags = true := by
        refine fun admitted => unmapped ⟨call, member, ok, ?_, admitted⟩
        rw [MapCall.key, vpnKey, radix] at key
        exact key
      simp only [admits_mapping, if_neg refused]
  · -- The builder refuses exactly the keys of the successful calls.
    intro flags vpn ppn outside
    obtain ⟨⟨status, after⟩, result, step⟩ := map_step represents (by rwa [sameMode])
      (MemoryMapping.new flags vpn ppn)
    refine ⟨status, after, result, ?_⟩
    split at step
    · exact absurd (by assumption) outside
    have decided := step.status
    constructor
    · rintro rfl
      split at decided
      · rename_i present
        obtain ⟨mapping, found⟩ := Option.isSome_iff_exists.mp present
        obtain ⟨call, member, ok, key, _⟩ := mem_of_mappedBy found
        refine ⟨call, member, ok, ?_⟩
        rw [MapCall.key, radix] at key
        exact key
      · rcases decided with other | ⟨other, _⟩ <;> cases other
    · rintro ⟨call, member, ok, same⟩
      have mapped := built.mappedBy_of_mem small translating levelsOk member ok
      have key : call.key levels = vpn.toNat % 512 ^ levels := by
        rw [MapCall.key, radix]
        exact same
      rw [key] at mapped
      -- The key is mapped, which leaves only the refusal.
      rw [show (MemoryMapping.new flags vpn ppn).vpn = vpn from rfl, mapped] at decided
      simpa using decided

/-- A page outside a small region can be mapped in three levels. -/
theorem Built.exists_page (flags : PTEFlags) {ppn : PPN} (outside : ¬(1 ≤ ppn ∧ ppn < 8)) :
    ∃ mapper memory, Built .sv39 1 8 [⟨flags, 5, ppn, .ok⟩] mapper memory := by
  obtain ⟨mapper, memory, start, free⟩ : ∃ mapper memory, Built .sv39 1 8 [] mapper memory ∧
      mapper.currTable = 2 :=
    ⟨_, _, .new (show SimpleMemoryMapper.new PhysMemory.new .sv39 1 8 = .ok _ from rfl), rfl⟩
  obtain ⟨mode, first, last, tables, represents⟩ :=
    start.represents (by decide) (show modeToLevels .sv39 = .ok 3 from rfl) (by decide)
  -- The root exists, and six tables are left for the two levels below it.
  have root : (tables 2 (RadixTables.keyPrefix 512 (5 % 512 ^ 3) 2)).isSome :=
    Option.isSome_of_eq_some represents.holds.shape.top.2
  obtain ⟨after, result, _⟩ := map_ok represents (by rw [mode]; rfl)
    (MemoryMapping.new flags 5 ppn) (by rw [first, last]; exact outside) rfl root
    (by rw [free, last]; decide)
  exact ⟨_, _, .map ⟨flags, 5, ppn, .ok⟩ start result⟩

/-- The builder and the memory after calls, the newest first, if each answers as its call says. -/
def buildTables (mode : ModeValue) (first last : PPN) (memory : PhysMemory) :
    List MapCall → Option (SimpleMemoryMapper × PhysMemory)
  | [] => (SimpleMemoryMapper.new memory mode first last).toOption
  | call :: earlier =>
    (buildTables mode first last memory earlier).bind fun (mapper, memory) =>
      match mapper.map memory call.mapping with
      | .error _ => none
      | .ok (status, after) => if status = call.status then some after else none

/-- Calls that answer as they say lead to what was computed. -/
theorem Built.of_buildTables {mode : ModeValue} {first last : PPN} {memory : PhysMemory}
    {history : List MapCall} {tables : SimpleMemoryMapper × PhysMemory}
    (computed : buildTables mode first last memory history = some tables) :
    Built mode first last history tables.1 tables.2 := by
  induction history generalizing tables with
  | nil =>
    rw [buildTables] at computed
    cases new : SimpleMemoryMapper.new memory mode first last with
    | error why =>
      rw [new] at computed
      cases computed
    | ok state =>
      rw [new] at computed
      cases computed
      exact .new new
  | cons call earlier ih =>
    obtain ⟨⟨mapper, before⟩, reached, computed⟩ := Option.bind_eq_some_iff.mp computed
    dsimp only at computed
    split at computed
    · cases computed
    · rename_i status after mapped
      split at computed
      · rename_i same
        cases computed
        exact .map call (ih reached) (same ▸ mapped)
      · cases computed

/-- Making tables leaves every byte outside of their region. -/
theorem bytes_buildTables {mode : ModeValue} {first last : PPN} {memory : PhysMemory}
    {history : List MapCall} {tables : SimpleMemoryMapper × PhysMemory} {levels : Nat}
    (computed : buildTables mode first last memory history = some tables)
    (translating : modeToLevels mode = .ok levels) (small : last.toNat ≤ 2 ^ 44)
    {addr : PhysAddr}
    (outside : ¬(first.toNat ≤ addr.toNat / 4096 ∧ addr.toNat / 4096 < last.toNat)) :
    tables.2.bytes addr = memory.bytes addr := by
  -- By induction on the calls, none of which writes outside of the region.
  induction history generalizing tables with
  | nil =>
    rw [buildTables, SimpleMemoryMapper.new] at computed
    split at computed
    · rename_i order
      split at computed
      · cases computed
      · rename_i added pages
        cases computed
        -- The pages of the region are the only ones that are added.
        have count : (last - first).toNat = last.toNat - first.toNat :=
          BitVec.toNat_sub_of_le (Nat.le_of_lt order)
        have bound : first.toNat < last.toNat := order
        rw [bytes_addTablePages (by omega) pages, if_neg (by omega)]
    · cases computed
  | cons call earlier ih =>
    obtain ⟨⟨mapper, before⟩, reached, computed⟩ := Option.bind_eq_some_iff.mp computed
    obtain ⟨sameMode, sameFirst, sameLast, _, represents⟩ :=
      (Built.of_buildTables reached).represents small translating (modeToLevels_bounds translating)
    obtain ⟨⟨status, after⟩, result, step⟩ := map_step represents (by rwa [sameMode]) call.mapping
    simp only [result] at computed
    split at computed
    · cases computed
      split at step
      · cases step
        exact ih reached
      · refine (step.outside addr ?_).trans (ih reached)
        rwa [SimpleMemoryMapper.InRegion, sameFirst, sameLast]
    · cases computed

/-- A page mapped for reading in three levels is found at its address. -/
theorem Built.translate_iff_mapped_page : ∃ mapper memory,
    Built .sv39 1 8 [⟨⟨0x12⟩, 5, 100, .ok⟩] mapper memory ∧
      translate memory {} ⟨.sv39, 0, 1⟩ .user .read 0x5123 =
        .ok ⟨.ok, 100 * 4096#64 + 0x5123 % 4096#64⟩ := by
  obtain ⟨mapper, memory, built⟩ := @Built.exists_page ⟨0x12⟩ 100 (by decide)
  have found := (built.translate_iff_mapped rfl (by decide) (by decide)).1 0 {} .user .read 0x5123
  exact ⟨_, _, built, found.1 ⟨⟨0x12⟩, 5, 100, .ok⟩ List.mem_cons_self rfl (by decide) (by decide)⟩

end RiscvSim

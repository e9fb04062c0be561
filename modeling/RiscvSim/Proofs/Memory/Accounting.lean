import RiscvSim.Lib.RadixCount
import RiscvSim.Proofs.Memory.Reach

/-! The tables that the calls of a builder take from its region, counted exactly. -/

namespace RiscvSim

open RadixTables

/-- The page numbers of the calls that made a mapping or found one, as far as they select entries. -/
def mappedVpns (levels : Nat) (history : List MapCall) : Finset Nat :=
  ((history.filter fun call => call.status = .ok ∨ call.status = .mapperAlreadyMapped).map
    fun call => call.vpn.toNat % 2 ^ (9 * levels)).toFinset

/-- The number of tables below the root: one for each distinct prefix of a level. -/
def tablesBelowRoot (levels : Nat) (vpns : Finset Nat) : Nat :=
  ∑ k ∈ Finset.Icc 1 (levels - 1), (vpns.image fun vpn => vpn / 2 ^ (9 * k)).card

/-- An entry of a table in memory is valid and holds the number of a page. -/
def References (memory : PhysMemory) (t d page : Nat) : Prop :=
  (PTEFlags.ofPTE (entry memory.bytes t d)).v = true ∧
    (ptePpn (entry memory.bytes t d)).toNat = page

/-- The tables of a region are accounted for by the calls that were made. -/
structure TablesAccounted (levels : Nat) (first last : PPN) (history : List MapCall)
    (mapper : SimpleMemoryMapper) (memory : PhysMemory) : Prop where
  /-- The next free table lies above the root and the tables that the mapped pages need. -/
  position : mapper.currTable.toNat =
    first.toNat + 1 + tablesBelowRoot levels (mappedVpns levels history)
  room : mapper.currTable.toNat ≤ last.toNat
  /-- Each table below the root is referenced by exactly one entry of the region. -/
  referenced : ∀ page, first.toNat < page → page < mapper.currTable.toNat →
    ∃ t d, (first.toNat ≤ t ∧ t < last.toNat ∧ d < 512 ∧ References memory t d page) ∧
      ∀ u e, first.toNat ≤ u → u < last.toNat → e < 512 → References memory u e page →
        u = t ∧ e = d
  zero : ∀ addr : PhysAddr, mapper.currTable.toNat ≤ addr.toNat / 4096 →
    addr.toNat / 4096 < last.toNat → memory.bytes addr = some 0
  /-- The next call runs out of tables exactly when the region is too small for its page as well. -/
  next : ∀ (flags : PTEFlags) (vpn : VPN) (ppn : PPN), ¬(first ≤ ppn ∧ ppn < last) →
    ∃ status after, mapper.map memory (MemoryMapping.new flags vpn ppn) = .ok (status, after) ∧
      (status = .mapperTableRegionEnd ↔ last.toNat < first.toNat + 1 + tablesBelowRoot levels
        (insert (vpn.toNat % 2 ^ (9 * levels)) (mappedVpns levels history)))

variable {mode : ModeValue} {first last : PPN} {levels : Nat} {history : List MapCall}
  {mapper : SimpleMemoryMapper} {memory : PhysMemory} {tables : Tables}
  {mapped : Nat → Option MemoryMapping} {keys : Finset Nat}

/-- The tables below the root are those that the keys need. -/
theorem tablesBelowRoot_eq (levels : Nat) (vpns : Finset Nat) :
    tablesBelowRoot levels vpns = tableCount 512 levels vpns := by
  -- The prefix at a level drops one more digit than the level has below it.
  symm
  apply Finset.sum_nbij (· + 1)
  · intro i member
    rw [Finset.mem_range] at member
    rw [Finset.mem_Icc]
    omega
  · intro i _ j _ same
    exact Nat.succ_inj.mp same
  · intro k member
    rw [Finset.mem_coe, Finset.mem_Icc] at member
    exact ⟨k - 1, by rw [Finset.mem_coe, Finset.mem_range]; omega, by dsimp only; omega⟩
  · intro i _
    simp only [keyPrefix, Nat.pow_mul]

/-- A call that made a mapping or found one adds its page. -/
theorem mappedVpns_cons (levels : Nat) (call : MapCall) (history : List MapCall) :
    mappedVpns levels (call :: history) =
      if call.status = .ok ∨ call.status = .mapperAlreadyMapped
      then insert (call.key levels) (mappedVpns levels history) else mappedVpns levels history := by
  have radix : (512 : Nat) ^ levels = 2 ^ (9 * levels) := (Nat.pow_mul 2 9 levels).symm
  -- Filtering keeps the new call exactly when it counts.
  rw [mappedVpns, List.filter_cons]
  split
  · rename_i counted
    rw [if_pos (of_decide_eq_true counted), List.map_cons, List.toFinset_cons, MapCall.key, radix]
    rfl
  · rename_i skipped
    rw [if_neg (by simpa using skipped)]
    rfl

namespace Represents

/-- A table below the root is referenced by the entry that links it, and by no other. -/
theorem referenced (represents : Represents levels mapper tables mapped memory)
    (outside : ∀ key mapping, mapped key = some mapping → mapping.ppn.toNat < 2 ^ 44 ∧
      ¬(mapper.tableRegionBegin.toNat ≤ mapping.ppn.toNat ∧
        mapping.ppn.toNat < mapper.tableRegionEnd.toNat))
    {page : Nat} (lower : mapper.tableRegionBegin.toNat < page)
    (upper : page < mapper.currTable.toNat) :
    ∃ t d, (mapper.tableRegionBegin.toNat ≤ t ∧ t < mapper.tableRegionEnd.toNat ∧ d < 512 ∧
        References memory t d page) ∧
      ∀ u e, mapper.tableRegionBegin.toNat ≤ u → u < mapper.tableRegionEnd.toNat → e < 512 →
        References memory u e page → u = t ∧ e = d := by
  -- The table serves a prefix on a level below the top, and the table above links it there.
  have holds := represents.holds
  have room := holds.room
  have small := represents.small
  obtain ⟨i, p, below, found⟩ := holds.shape.below_top lower upper
  obtain ⟨t, parent⟩ := Option.isSome_iff_exists.mp (holds.shape.parent i p page found below)
  have bounds := represents.table_bounds parent
  have digits : p / 512 * 512 + p % 512 = p := Nat.div_add_mod' p 512
  refine ⟨t, p % 512, ⟨bounds.1, bounds.2.1, by omega, ?_⟩, ?_⟩
  · -- The link is read back as the number of the table.
    have link := holds.links i (p / 512) t (p % 512) parent (by omega)
    obtain ⟨valid, _, _, ppn⟩ := linkTo_reads (t := page) (by omega)
    rw [digits, found] at link
    rw [References, link, Option.map_some, Option.getD_some, ppn, BitVec.toNat_ofNat]
    exact ⟨valid, by omega⟩
  · -- The entry that references the page can only be the link, by what each kind of table holds.
    intro u e least most inside references
    rw [References] at references
    by_cases taken : u < mapper.currTable.toNat
    · obtain ⟨j, q, other⟩ := holds.shape.onto u least taken
      cases j with
      | zero =>
        -- An entry of the lowest level holds a page outside the region.
        rw [holds.leaves q u e other inside] at references
        cases value : mapped (q * 512 + e) with
        | none => simp [value] at references
        | some mapping =>
          obtain ⟨fits, apart⟩ := outside _ _ value
          have number := references.2
          rw [value, Option.map_some, Option.getD_some, leafPTE, ptePpn_createPTE _ fits] at number
          omega
      | succ j =>
        -- An entry above it links the table of its own prefix.
        rw [holds.links j q u e other inside] at references
        cases child : tables j (q * 512 + e) with
        | none => simp [child] at references
        | some v =>
          have limit := (represents.table_bounds child).2.2.1
          obtain ⟨_, _, _, ppn⟩ := linkTo_reads limit
          rw [child, Option.map_some, Option.getD_some, ppn, BitVec.toNat_ofNat] at references
          obtain rfl : v = page := by omega
          -- Two prefixes are not served by the same table, so the link is the same one.
          obtain ⟨rfl, rfl⟩ := holds.shape.unique _ _ _ _ _ found child
          rw [show (q * 512 + e) / 512 = q by omega, other] at parent
          cases parent
          exact ⟨rfl, by omega⟩
    · -- A table that was not handed out has no valid entry.
      rw [holds.free u e (by omega) most inside] at references
      simp at references

/-- Tables that were not handed out are pages of zeros. -/
theorem zero_page (represents : Represents levels mapper tables mapped memory) (addr : PhysAddr)
    (lower : mapper.currTable.toNat ≤ addr.toNat / 4096)
    (upper : addr.toNat / 4096 < mapper.tableRegionEnd.toNat) : memory.bytes addr = some 0 := by
  have small := represents.small
  have order := represents.holds.shape.bounds _ _ _ represents.holds.shape.top.2
  -- The byte belongs to one of the 512 entries of its page.
  have bound := addr.isLt
  have inside : addr.toNat % 4096 / 8 < 512 := by omega
  have blank := represents.holds.free (addr.toNat / 4096) (addr.toNat % 4096 / 8) lower upper inside
  -- The byte is one of those of a blank entry.
  have byte := congrArg (fun word => LittleEndian.byteAt (n := pteBytes) word (addr.toNat % 8)) blank
  have place : BitVec.ofNat 64 (addr.toNat / 4096 * 4096 + addr.toNat % 4096 / 8 * 8) +
      BitVec.ofNat 64 (addr.toNat % 8) = addr := by
    apply BitVec.eq_of_toNat_eq
    rw [BitVec.toNat_add, BitVec.toNat_ofNat, BitVec.toNat_ofNat]
    omega
  have position : addr.toNat % 8 < 8 := by omega
  rw [entry, ByteStore.byteAt_get _ _ position, place] at byte
  -- The page was added with the region, so the byte is there.
  have present := represents.pages (addr.toNat / 4096) (by omega) upper
  have samePage : pageBase (BitVec.ofNat 64 (addr.toNat / 4096 * 4096)) = pageBase addr := by
    rw [pageBase_eq_iff, BitVec.toNat_ofNat]
    omega
  rw [PhysMemory.HasPage, samePage, ← PhysMemory.HasPage, ← PhysMemory.isSome_bytes] at present
  obtain ⟨value, found⟩ := Option.isSome_iff_exists.mp present
  rw [found] at byte ⊢
  rw [show value = 0 from byte.trans (LittleEndian.byteAt_zero (n := pteBytes) _)]

/-- A call creates the tables that its page needs, unless it runs out of them. -/
theorem map_tables (represents : Represents levels mapper tables mapped memory)
    (needed : Needed 512 levels tables keys) (served : Served 512 tables keys)
    (translating : modeToLevels mapper.mode = .ok levels) (mapping : MemoryMapping)
    (outside : ¬(mapper.tableRegionBegin ≤ mapping.ppn ∧ mapping.ppn < mapper.tableRegionEnd)) :
    ∃ status after grown, mapper.map memory mapping = .ok (status, after) ∧
      after.1.mode = mapper.mode ∧ after.1.tableRegionBegin = mapper.tableRegionBegin ∧
      after.1.tableRegionEnd = mapper.tableRegionEnd ∧
      (status = .ok ∨ status = .mapperAlreadyMapped ∨
        status = .mapperTableRegionEnd ∧ after.1.currTable = mapper.tableRegionEnd) ∧
      Represents levels after.1 grown (if status = .ok then Function.update mapped
        (mapping.vpn.toNat % 512 ^ levels) (some mapping) else mapped) after.2 ∧
      Needed 512 levels grown (insert (mapping.vpn.toNat % 512 ^ levels) keys) ∧
      if status = .mapperTableRegionEnd
      then grown 0 (keyPrefix 512 (mapping.vpn.toNat % 512 ^ levels) 0) = none
      else Served 512 grown (insert (mapping.vpn.toNat % 512 ^ levels) keys) := by
  -- The step of a call says how the tables grew along its key.
  obtain ⟨⟨status, after⟩, result, step⟩ := map_step represents translating mapping
  rw [if_neg outside] at step
  obtain ⟨grown, along, reached, represented⟩ := step.represents
  have kept := step.kept
  have decided := step.status
  refine ⟨status, after, grown, result, ?_, ?_, ?_, ?_, represented, needed.insert along, ?_⟩
  · rw [kept]
  · rw [kept]
  · rw [kept]
  · split at decided
    · exact .inr (.inl decided)
    · exact decided.imp_right .inr
  · split
    · -- Without its lowest table, the key is one that ran out.
      rename_i ended
      rw [← Option.not_isSome_iff_eq_none, reached]
      exact not_not.mpr ended
    · rename_i found
      exact served.insert along (reached.mpr found)

end Represents

/-- Every mode has a level below the root. -/
theorem one_lt_levels (translating : modeToLevels mode = .ok levels) : 1 < levels := by
  -- The bare mode is not translated.
  cases mode <;> cases translating <;> decide

/-- A new builder has taken the root table alone. -/
theorem new_currTable {built : PhysMemory}
    (result : SimpleMemoryMapper.new memory mode first last = .ok (mapper, built)) :
    mapper.currTable.toNat = first.toNat + 1 := by
  unfold SimpleMemoryMapper.new at result
  split at result
  · rename_i order
    have order : first.toNat < last.toNat := order
    have limit := last.isLt
    split at result
    · cases result
    · cases result
      rw [BitVec.toNat_add, show (1 : PPN).toNat = 1 from rfl]
      omega
  · cases result

/-- Unless a call ran out of tables, there are exactly those that the mapped pages need. -/
theorem Built.counted (built : Built mode first last history mapper memory)
    (translating : modeToLevels mode = .ok levels) (small : last.toNat ≤ 2 ^ 44)
    (supplied : ∀ call ∈ history, call.status ≠ .mapperTableRegionEnd) :
    ∃ tables, Represents levels mapper tables (mappedBy levels history) memory ∧
      Needed 512 levels tables (mappedVpns levels history) ∧
      Served 512 tables (mappedVpns levels history) := by
  -- By induction on the history, every call keeps the tables needed and the keys served.
  have levelsOk := modeToLevels_bounds translating
  induction built with
  | new result =>
    obtain ⟨_, rfl, rfl, tables, represents⟩ := represents_new small levelsOk result
    refine ⟨tables, represents, ?_, fun key member => absurd member (Finset.notMem_empty key)⟩
    -- A table below the root would have a number above the only one that was taken.
    intro i p below present
    obtain ⟨t, found⟩ := Option.isSome_iff_exists.mp present
    have lower := represents.holds.shape.root_lt found below
    have upper := (represents.holds.shape.bounds i p t found).2
    have taken := new_currTable result
    omega
  | other after built same ih =>
    obtain ⟨tables, represents, counted⟩ := ih supplied
    exact ⟨tables, represents.congr_bytes same, counted⟩
  | @map history mapper memory after call built result ih =>
    obtain ⟨tables, represents, needed, served⟩ :=
      ih fun earlier member => supplied earlier (List.mem_cons_of_mem call member)
    obtain ⟨sameMode, _⟩ := built.represents small translating levelsOk
    have translates : modeToLevels mapper.mode = .ok levels := sameMode ▸ translating
    rw [mappedVpns_cons]
    by_cases refused : mapper.tableRegionBegin ≤ call.ppn ∧ call.ppn < mapper.tableRegionEnd
    · -- A call that is refused changes nothing.
      have unchanged : mapper.map memory call.mapping =
          .ok (.mapperTableRegionPageMapped, mapper, memory) := if_pos refused
      rw [unchanged] at result
      obtain ⟨status, rfl⟩ := Prod.mk.inj (Except.ok.inj result)
      rw [mappedBy, ← status]
      exact ⟨tables, represents, needed, served⟩
    · obtain ⟨status, after, grown, same, _, _, _, ways, represented, neededAfter, servedAfter⟩ :=
        represents.map_tables needed served translates call.mapping refused
      rw [result] at same
      cases same
      have enough := supplied call List.mem_cons_self
      rw [if_neg enough] at servedAfter
      have counted : call.status = .ok ∨ call.status = .mapperAlreadyMapped := by
        rcases ways with ok | already | ⟨ended, _⟩
        · exact .inl ok
        · exact .inr already
        · exact absurd ended enough
      rw [if_pos counted]
      refine ⟨grown, ?_, neededAfter, servedAfter⟩
      rw [mappedBy]
      exact represented

/-- The position of a builder counts its tables, of which there is one for each prefix. -/
theorem Built.currTable_eq (built : Built mode first last history mapper memory)
    (translating : modeToLevels mode = .ok levels) (small : last.toNat ≤ 2 ^ 44)
    (supplied : ∀ call ∈ history, call.status ≠ .mapperTableRegionEnd) :
    mapper.currTable.toNat = first.toNat + 1 + tablesBelowRoot levels (mappedVpns levels history) ∧
      mapper.currTable.toNat ≤ last.toNat := by
  obtain ⟨tables, represents, needed, served⟩ := built.counted translating small supplied
  obtain ⟨_, rfl, rfl, _⟩ := built.represents small translating (modeToLevels_bounds translating)
  refine ⟨?_, represents.holds.room⟩
  rw [tablesBelowRoot_eq]
  exact represents.holds.shape.next_eq needed served

/-- A call runs out of tables exactly when the region is too small for its page as well. -/
theorem Built.map_ends_iff (built : Built mode first last history mapper memory)
    (translating : modeToLevels mode = .ok levels) (small : last.toNat ≤ 2 ^ 44)
    (supplied : ∀ call ∈ history, call.status ≠ .mapperTableRegionEnd) (flags : PTEFlags)
    (vpn : VPN) (ppn : PPN) (outside : ¬(first ≤ ppn ∧ ppn < last)) :
    ∃ status after, mapper.map memory (MemoryMapping.new flags vpn ppn) = .ok (status, after) ∧
      (status = .mapperTableRegionEnd ↔ last.toNat < first.toNat + 1 + tablesBelowRoot levels
        (insert (vpn.toNat % 2 ^ (9 * levels)) (mappedVpns levels history))) := by
  have radix : (512 : Nat) ^ levels = 2 ^ (9 * levels) := (Nat.pow_mul 2 9 levels).symm
  obtain ⟨tables, represents, needed, served⟩ := built.counted translating small supplied
  obtain ⟨sameMode, rfl, rfl, _⟩ :=
    built.represents small translating (modeToLevels_bounds translating)
  obtain ⟨status, after, grown, result, _, afterFirst, afterLast, ways, represented, neededAfter,
    servedAfter⟩ := represents.map_tables needed served (sameMode ▸ translating)
      (MemoryMapping.new flags vpn ppn) outside
  refine ⟨status, after, result, ?_⟩
  rw [tablesBelowRoot_eq, ← radix, ← afterFirst, ← afterLast]
  by_cases ended : status = .mapperTableRegionEnd
  · -- The builder took all tables, and the page lacks one.
    rw [if_pos ended] at servedAfter
    have taken : after.1.currTable = mapper.tableRegionEnd := by
      rcases ways with ok | already | ⟨_, taken⟩
      · rw [ok] at ended
        cases ended
      · rw [already] at ended
        cases ended
      · exact taken
    have short := represented.holds.shape.next_lt neededAfter (one_lt_levels translating)
      (Finset.mem_insert_self _ _) servedAfter
    rw [taken, ← afterLast] at short
    exact iff_of_true ended short
  · -- All tables that the page needs are there, so they fitted.
    rw [if_neg ended] at servedAfter
    have counted := represented.holds.shape.next_eq neededAfter servedAfter
    have room := represented.holds.room
    rw [counted] at room
    exact iff_of_false ended (Nat.not_lt.mpr room)

/-- While no call runs out of tables, a builder has taken exactly those that its pages need. -/
theorem Built.tablesAccounted (built : Built mode first last history mapper memory)
    (translating : modeToLevels mode = .ok levels) (small : last.toNat ≤ 2 ^ 44)
    (ppns : ∀ call ∈ history, call.ppn.toNat < 2 ^ 44)
    (supplied : ∀ call ∈ history, call.status ≠ .mapperTableRegionEnd) :
    TablesAccounted levels first last history mapper memory := by
  obtain ⟨position, room⟩ := built.currTable_eq translating small supplied
  obtain ⟨_, represents, _⟩ := built.counted translating small supplied
  obtain ⟨_, sameFirst, sameLast, _⟩ :=
    built.represents small translating (modeToLevels_bounds translating)
  refine ⟨position, room, ?_, ?_, built.map_ends_iff translating small supplied⟩
  · -- The mappings point outside the region, so no leaf is taken for a link.
    rw [← sameFirst, ← sameLast]
    intro page lower upper
    refine represents.referenced (fun key mapping value => ?_) lower upper
    obtain ⟨call, member, ok, _, rfl⟩ := mem_of_mappedBy value
    rw [sameFirst, sameLast]
    exact ⟨ppns call member, built.outside small translating member ok⟩
  · -- Tables that nobody took are still zero.
    rw [← sameLast]
    exact represents.zero_page

/-- A page mapped in three levels takes the two tables below the root. -/
theorem Built.tablesAccounted_page : ∃ mapper memory,
    Built .sv39 1 8 [⟨⟨0x12⟩, 5, 100, .ok⟩] mapper memory ∧
      TablesAccounted 3 1 8 [⟨⟨0x12⟩, 5, 100, .ok⟩] mapper memory := by
  obtain ⟨mapper, memory, built⟩ := @Built.exists_page ⟨0x12⟩ 100 (by decide)
  exact ⟨mapper, memory, built,
    built.tablesAccounted rfl (by decide) (by decide) (by decide)⟩

end RiscvSim

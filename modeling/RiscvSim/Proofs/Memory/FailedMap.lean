import RiscvSim.Proofs.Memory.Reach
import Mathlib.Data.List.Forall2

/-! What a call of the builder leaves behind when it fails. -/

namespace RiscvSim

open RadixTables

/-- The statuses that a sequence of calls returns. -/
def SimpleMemoryMapper.statuses (mapper : SimpleMemoryMapper) (memory : PhysMemory) :
    List MemoryMapping → Except Abort (List SimStatus)
  | [] => .ok []
  | mapping :: later =>
    match mapper.map memory mapping with
    | .error why => .error why
    | .ok (status, mapper, memory) =>
      match mapper.statuses memory later with
      | .error why => .error why
      | .ok statuses => .ok (status :: statuses)

/-- The statuses of a sequence are that of its first call and those of the later ones. -/
theorem SimpleMemoryMapper.statuses_cons {mapper : SimpleMemoryMapper} {memory : PhysMemory}
    {mapping : MemoryMapping} {later : List MemoryMapping} {status : SimStatus}
    {statuses : List SimStatus} :
    mapper.statuses memory (mapping :: later) = .ok (status :: statuses) ↔
      ∃ after, mapper.map memory mapping = .ok (status, after) ∧
        after.1.statuses after.2 later = .ok statuses := by
  rw [SimpleMemoryMapper.statuses]
  constructor
  · intro returned
    split at returned
    · cases returned
    · rename_i called
      split at returned
      · cases returned
      · rename_i rest
        cases returned
        exact ⟨_, called, rest⟩
  · rintro ⟨after, called, rest⟩
    simp only [called, rest]

variable {mode : ModeValue} {first last : PPN} {levels : Nat} {history : List MapCall}
  {mapper other : SimpleMemoryMapper} {memory otherMemory : PhysMemory} {tables : Tables}
  {mapped : Nat → Option MemoryMapping} {mapping : MemoryMapping}

namespace Represents

/-- Mapping comes down to the lowest table of a key when the key has one. -/
theorem mapFrom_lowest (represents : Represents levels mapper tables mapped memory)
    {va : VirtAddr} {i t u : Nat} (found : tables i (keyPrefix 512 (vpnKey levels va) i) = some t)
    (lowest : tables 0 (keyPrefix 512 (vpnKey levels va) 0) = some u) :
    SimpleMemoryMapper.mapFrom mapping va i (BitVec.ofNat 64 t) mapper memory =
      SimpleMemoryMapper.mapFrom mapping va 0 (BitVec.ofNat 64 u) mapper memory := by
  -- By induction on the level, every table above the lowest one exists and links the next.
  induction i generalizing t with
  | zero =>
    -- The walk is there already.
    rw [found] at lowest
    cases lowest
    rfl
  | succ i ih =>
    have inside := (represents.table_bounds found).2.2.2
    obtain ⟨v, child⟩ := Option.isSome_iff_exists.mp
      (represents.holds.shape.ancestors (Option.isSome_of_eq_some lowest) (Nat.zero_le i)
        (by omega))
    rw [represents.mapFrom_linked mapping found child]
    exact ih child

/-- Mapping is refused when a key lacks its lowest table and no table is free. -/
theorem mapFrom_refused (represents : Represents levels mapper tables mapped memory)
    {va : VirtAddr} {i t : Nat} (found : tables i (keyPrefix 512 (vpnKey levels va) i) = some t)
    (missing : tables 0 (keyPrefix 512 (vpnKey levels va) 0) = none)
    (full : mapper.currTable = mapper.tableRegionEnd) :
    SimpleMemoryMapper.mapFrom mapping va i (BitVec.ofNat 64 t) mapper memory =
      (.mapperTableRegionEnd, mapper, memory) := by
  -- By induction on the level, links are followed to the entry that links no table.
  induction i generalizing t with
  | zero =>
    rw [found] at missing
    cases missing
  | succ i ih =>
    cases child : tables i (keyPrefix 512 (vpnKey levels va) i) with
    | none => exact represents.mapFrom_full mapping found child full
    | some u =>
      rw [represents.mapFrom_linked mapping found child]
      exact ih child

/-- A call for a key with its lowest table maps it, or finds it mapped. -/
theorem map_lowest (represents : Represents levels mapper tables mapped memory)
    (translating : modeToLevels mapper.mode = .ok levels)
    (outside : ¬(mapper.tableRegionBegin ≤ mapping.ppn ∧ mapping.ppn < mapper.tableRegionEnd))
    (lowest : (tables 0 (keyPrefix 512 (mapping.vpn.toNat % 512 ^ levels) 0)).isSome) :
    if (mapped (mapping.vpn.toNat % 512 ^ levels)).isSome
    then mapper.map memory mapping = .ok (.mapperAlreadyMapped, mapper, memory)
    else ∃ after, mapper.map memory mapping = .ok (.ok, mapper, after) ∧
      Represents levels mapper tables
        (Function.update mapped (mapping.vpn.toNat % 512 ^ levels) (some mapping)) after := by
  rw [← vpnKey_vpn represents.shallow] at lowest ⊢
  obtain ⟨u, found⟩ := Option.isSome_iff_exists.mp lowest
  -- All links down to the lowest table exist, so the call is decided by its entry.
  rw [map_eq translating outside, represents.mapFrom_lowest (represents.root _) found]
  split
  · rename_i present
    rw [represents.mapFrom_mapped mapping found present]
  · rename_i missing
    rw [Option.not_isSome_iff_eq_none] at missing
    -- The empty entry takes the leaf, and no table is created.
    exact ⟨_, by rw [represents.mapFrom_unmapped mapping found missing],
      represents.addLeaf mapping found⟩

/-- A call for a key without its lowest table changes nothing when no table is free. -/
theorem map_refused (represents : Represents levels mapper tables mapped memory)
    (translating : modeToLevels mapper.mode = .ok levels)
    (outside : ¬(mapper.tableRegionBegin ≤ mapping.ppn ∧ mapping.ppn < mapper.tableRegionEnd))
    (missing : tables 0 (keyPrefix 512 (mapping.vpn.toNat % 512 ^ levels) 0) = none)
    (full : mapper.currTable = mapper.tableRegionEnd) :
    mapper.map memory mapping = .ok (.mapperTableRegionEnd, mapper, memory) := by
  rw [← vpnKey_vpn represents.shallow] at missing
  rw [map_eq translating outside, represents.mapFrom_refused (represents.root _) missing full]

end Represents

/-- Two builders of one region, where the second has no free table and is behind the first. -/
structure Behind (levels : Nat) (mapper other : SimpleMemoryMapper)
    (memory otherMemory : PhysMemory) (tables otherTables : Tables)
    (mapped otherMapped : Nat → Option MemoryMapping) : Prop where
  represents : Represents levels mapper tables mapped memory
  otherRepresents : Represents levels other otherTables otherMapped otherMemory
  mode : other.mode = mapper.mode
  region : other.tableRegionBegin = mapper.tableRegionBegin ∧
    other.tableRegionEnd = mapper.tableRegionEnd
  full : other.currTable = other.tableRegionEnd
  lowest : ∀ p, (otherTables 0 p).isSome → (tables 0 p).isSome
  /-- The keys whose lowest table both have are mapped in both or in neither. -/
  agree : ∀ key, (otherTables 0 (keyPrefix 512 key 0)).isSome →
    (otherMapped key).isSome = (mapped key).isSome

/-- A call returns the same status for both builders, unless the second lacks a table. -/
theorem Behind.map {otherTables : Tables} {otherMapped : Nat → Option MemoryMapping}
    (behind : Behind levels mapper other memory otherMemory tables otherTables mapped otherMapped)
    (translating : modeToLevels mapper.mode = .ok levels) (mapping : MemoryMapping) :
    ∃ status after otherStatus otherAfter, mapper.map memory mapping = .ok (status, after) ∧
      other.map otherMemory mapping = .ok (otherStatus, otherAfter) ∧
      (otherStatus = status ∨ otherStatus = .mapperTableRegionEnd) ∧
      modeToLevels after.1.mode = .ok levels ∧
      ∃ tables mapped otherMapped,
        Behind levels after.1 otherAfter.1 after.2 otherAfter.2 tables otherTables mapped
          otherMapped := by
  obtain ⟨represents, otherRepresents, mode, ⟨sameFirst, sameLast⟩, full, lowest, agree⟩ := behind
  have otherTranslating : modeToLevels other.mode = .ok levels := by rwa [mode]
  by_cases refused : mapper.tableRegionBegin ≤ mapping.ppn ∧ mapping.ppn < mapper.tableRegionEnd
  · -- Both refuse a page of the region.
    have otherRefused := refused
    rw [← sameFirst, ← sameLast] at otherRefused
    exact ⟨_, (mapper, memory), _, (other, otherMemory), if_pos refused, if_pos otherRefused,
      .inl rfl, translating, tables, mapped, otherMapped, represents, otherRepresents, mode,
      ⟨sameFirst, sameLast⟩, full, lowest, agree⟩
  have otherOutside := refused
  rw [← sameFirst, ← sameLast] at otherOutside
  cases present : otherTables 0 (keyPrefix 512 (mapping.vpn.toNat % 512 ^ levels) 0) with
  | some u =>
    -- Both have the table that the entry goes to, and agree on whether it is there.
    have otherPresent := Option.isSome_of_eq_some present
    have step := represents.map_lowest translating refused (lowest _ otherPresent)
    have otherStep := otherRepresents.map_lowest otherTranslating otherOutside otherPresent
    rw [agree _ otherPresent] at otherStep
    split at step <;> rename_i isMapped
    · rw [if_pos isMapped] at otherStep
      exact ⟨_, (mapper, memory), _, (other, otherMemory), step, otherStep, .inl rfl, translating,
        tables, mapped, otherMapped, represents, otherRepresents, mode, ⟨sameFirst, sameLast⟩, full,
        lowest, agree⟩
    · rw [if_neg isMapped] at otherStep
      -- Both make the mapping, and the tables of both stay.
      obtain ⟨after, result, updated⟩ := step
      obtain ⟨otherAfter, otherResult, otherUpdated⟩ := otherStep
      refine ⟨_, (mapper, after), _, (other, otherAfter), result, otherResult, .inl rfl,
        translating, tables, _, _, updated, otherUpdated, mode, ⟨sameFirst, sameLast⟩, full, lowest,
        fun key held => ?_⟩
      by_cases same : key = mapping.vpn.toNat % 512 ^ levels
      · rw [same, Function.update_self, Function.update_self]
      · rw [Function.update_of_ne same, Function.update_of_ne same]
        exact agree key held
  | none =>
    -- The second lacks a table, whatever the first does.
    have otherResult := otherRepresents.map_refused otherTranslating otherOutside present full
    obtain ⟨⟨status, after⟩, result, step⟩ := map_step represents translating mapping
    rw [if_neg refused] at step
    obtain ⟨grown, along, _, updated⟩ := step.represents
    have kept := step.kept
    -- The first builder may create tables, which takes none away from it.
    refine ⟨status, after, _, (other, otherMemory), result, otherResult, .inr rfl, ?_, grown, _, _,
      updated, otherRepresents, ?_, ?_, full, fun p held => along.keeps 0 p (lowest p held),
      fun key held => ?_⟩
    · rw [kept]
      exact translating
    · rw [kept]
      exact mode
    · rw [kept]
      exact ⟨sameFirst, sameLast⟩
    · rw [agree key held]
      -- The key of the call is another one, as its lowest table is missing.
      have different : key ≠ mapping.vpn.toNat % 512 ^ levels := by
        rintro rfl
        rw [present] at held
        cases held
      split
      · rw [Function.update_of_ne different]
      · rfl

/-- Later calls return the same statuses for both builders, unless the second lacks a table. -/
theorem Behind.statuses {otherTables : Tables} {otherMapped : Nat → Option MemoryMapping}
    (behind : Behind levels mapper other memory otherMemory tables otherTables mapped otherMapped)
    (translating : modeToLevels mapper.mode = .ok levels) (calls : List MemoryMapping) :
    ∃ expected actual, mapper.statuses memory calls = .ok expected ∧
      other.statuses otherMemory calls = .ok actual ∧
      List.Forall₂ (fun status otherStatus =>
        otherStatus = status ∨ otherStatus = .mapperTableRegionEnd) expected actual := by
  -- By induction on the calls, each one leaves the second builder behind.
  induction calls generalizing mapper other memory otherMemory tables mapped otherMapped with
  | nil => exact ⟨[], [], rfl, rfl, .nil⟩
  | cons mapping later ih =>
    obtain ⟨status, after, otherStatus, otherAfter, result, otherResult, related, stillTranslating,
      _, _, _, stillBehind⟩ := behind.map translating mapping
    obtain ⟨expected, actual, same, otherSame, rest⟩ := ih stillBehind stillTranslating
    exact ⟨status :: expected, otherStatus :: actual,
      by simp only [SimpleMemoryMapper.statuses, result, same],
      by simp only [SimpleMemoryMapper.statuses, otherResult, otherSame], .cons related rest⟩

namespace Represents

variable {status : SimStatus} {after : SimpleMemoryMapper × PhysMemory}

/-- No sequence of calls aborts. -/
theorem statuses_ok (represents : Represents levels mapper tables mapped memory)
    (translating : modeToLevels mapper.mode = .ok levels) (calls : List MemoryMapping) :
    ∃ statuses, mapper.statuses memory calls = .ok statuses := by
  -- By induction on the calls, each of which returns and keeps the tables represented.
  induction calls generalizing mapper memory tables mapped with
  | nil => exact ⟨[], rfl⟩
  | cons mapping later ih =>
    obtain ⟨⟨status, after⟩, result, step⟩ := map_step represents translating mapping
    simp only [SimpleMemoryMapper.statuses, result]
    split at step
    · -- A page of the region is refused, and the state is the same.
      cases step
      obtain ⟨statuses, same⟩ := ih represents translating
      exact ⟨_ :: statuses, by rw [same]⟩
    · obtain ⟨grown, _, _, updated⟩ := step.represents
      obtain ⟨statuses, same⟩ := ih updated (by rw [step.kept]; exact translating)
      exact ⟨status :: statuses, by rw [same]⟩

/-- A call that failed without taking a table changed nothing. -/
theorem map_unchanged (represents : Represents levels mapper tables mapped memory)
    (translating : modeToLevels mapper.mode = .ok levels)
    (result : mapper.map memory mapping = .ok (status, after)) (failed : status ≠ .ok)
    (untaken : status = .mapperTableRegionEnd → mapper.currTable = mapper.tableRegionEnd) :
    after = (mapper, memory) := by
  -- The call is one that the step lemma describes, and its status did not say ok.
  obtain ⟨_, same, step⟩ := map_step represents translating mapping
  rw [result] at same
  cases same
  split at step
  · exact (Prod.mk.inj step).2
  rename_i outside
  have decided := step.status
  cases lowest : tables 0 (keyPrefix 512 (mapping.vpn.toNat % 512 ^ levels) 0) with
  | some u =>
    -- With its lowest table, a key is mapped or was mapped already.
    have lower := represents.map_lowest translating outside (Option.isSome_of_eq_some lowest)
    split at lower
    · rw [result] at lower
      exact (Prod.mk.inj (Except.ok.inj lower)).2
    · obtain ⟨_, mappedNow, _⟩ := lower
      rw [result] at mappedNow
      exact absurd (Prod.mk.inj (Except.ok.inj mappedNow)).1 failed
  | none =>
    -- Without it the key is not mapped, so that the region is full.
    have missing := represents.holds.value_none represents.holds.shape.top.1 lowest
    rw [Option.map_eq_none_iff] at missing
    rw [missing] at decided
    rcases decided with ok | ⟨ended, _⟩
    · exact absurd ok failed
    · have refused := represents.map_refused translating outside lowest (untaken ended)
      rw [result] at refused
      exact (Prod.mk.inj (Except.ok.inj refused)).2

/-- A call that ran out of tables leaves a builder behind the one that it started from. -/
theorem behind_of_outOfTables (represents : Represents levels mapper tables mapped memory)
    (translating : modeToLevels mapper.mode = .ok levels)
    (result : mapper.map memory mapping = .ok (.mapperTableRegionEnd, after)) :
    ∃ otherTables,
      Behind levels mapper after.1 memory after.2 tables otherTables mapped mapped := by
  obtain ⟨_, same, step⟩ := map_step represents translating mapping
  rw [result] at same
  cases same
  split at step
  · cases (Prod.mk.inj step).1
  rename_i outside
  have kept := step.kept
  -- The call took every table that was left.
  have full : after.1.currTable = mapper.tableRegionEnd := by
    have decided := step.status
    split at decided
    · cases decided
    · rcases decided with ok | ⟨_, full⟩
      · cases ok
      · exact full
  obtain ⟨otherTables, along, reached, otherRepresents⟩ := step.represents
  have lowest (p : Nat) (present : (otherTables 0 p).isSome) : (tables 0 p).isSome := by
    rcases along.adds 0 p present with found | rfl
    · exact found
    -- The lowest table of the key itself was not created.
    · exact absurd rfl (reached.mp present)
  refine ⟨otherTables, represents, otherRepresents, ?_, ?_, ?_, lowest, fun _ _ => rfl⟩
  · rw [kept]
  · rw [kept]
    exact ⟨rfl, rfl⟩
  · rw [full, kept]

end Represents

/-- What a call that failed leaves behind. -/
structure FailsSafely (mapper : SimpleMemoryMapper) (memory : PhysMemory) (status : SimStatus)
    (after : SimpleMemoryMapper × PhysMemory) : Prop where
  /-- Unless it took tables before it found none, everything is as before. -/
  untouched : (status = .mapperTableRegionEnd → mapper.currTable = mapper.tableRegionEnd) →
    after.1.currTable = mapper.currTable ∧ after.2.bytes = memory.bytes ∧
      ∀ calls, after.1.statuses after.2 calls = mapper.statuses memory calls
  /-- A call that finds no table has taken all of them. -/
  taken : status = .mapperTableRegionEnd → after.1.currTable = mapper.tableRegionEnd
  outside : ∀ addr, ¬mapper.InRegion addr → after.2.bytes addr = memory.bytes addr
  translation : ∀ asid mstatus64 privLevel accessType va,
    translate after.2 mstatus64 ⟨mapper.mode, asid, mapper.tableRegionBegin⟩ privLevel accessType
        va =
      translate memory mstatus64 ⟨mapper.mode, asid, mapper.tableRegionBegin⟩ privLevel accessType
        va
  /-- A later call returns the same status, unless it finds no table. -/
  later : ∀ calls, ∃ expected actual, mapper.statuses memory calls = .ok expected ∧
    after.1.statuses after.2 calls = .ok actual ∧
    List.Forall₂ (fun status otherStatus =>
      otherStatus = status ∨ otherStatus = .mapperTableRegionEnd) expected actual

/-- A failed call makes no mapping and loses none, and may leave only tables behind. -/
theorem Built.map_failed (built : Built mode first last history mapper memory)
    (translating : modeToLevels mode = .ok levels) (small : last.toNat ≤ 2 ^ 44)
    (mapping : MemoryMapping) {status : SimStatus} {after : SimpleMemoryMapper × PhysMemory}
    (result : mapper.map memory mapping = .ok (status, after)) (failed : status ≠ .ok) :
    FailsSafely mapper memory status after := by
  obtain ⟨rfl, _, _, tables, represents⟩ :=
    built.represents small translating (modeToLevels_bounds translating)
  have unchanged := represents.map_unchanged translating result failed
  -- Running out of tables is the one failure that may have changed something.
  by_cases ended : status = .mapperTableRegionEnd
  · subst ended
    obtain ⟨otherTables, behind⟩ := represents.behind_of_outOfTables translating result
    obtain ⟨_, same, step⟩ := map_step represents translating mapping
    rw [result] at same
    cases same
    split at step
    · cases (Prod.mk.inj step).1
    refine ⟨fun untaken => ?_, fun _ => behind.full.trans behind.region.2, step.outside, ?_,
      behind.statuses translating⟩
    · rw [unchanged untaken]
      exact ⟨rfl, rfl, fun _ => rfl⟩
    · -- The tables spell the same mappings as before.
      intro asid mstatus64 privLevel accessType va
      have now := translate_eq behind.otherRepresents translating asid mstatus64 privLevel
        accessType va
      rw [behind.region.1] at now
      rw [now, translate_eq represents translating]
  · -- Any other failure changes nothing.
    rw [unchanged fun never => absurd never ended]
    refine ⟨fun _ => ⟨rfl, rfl, fun _ => rfl⟩, fun never => absurd never ended, fun _ _ => rfl,
      fun _ _ _ _ _ => rfl, fun calls => ?_⟩
    obtain ⟨statuses, same⟩ := represents.statuses_ok translating calls
    exact ⟨statuses, statuses, same, same, List.forall₂_same.mpr fun _ _ => .inl rfl⟩

/-- A builder with four pages has one table left after a call, and the next one takes it. -/
theorem Built.exists_outOfTables : ∃ mapper memory after,
    Built .sv39 1 5 [⟨⟨0x12⟩, 0, 100, .ok⟩] mapper memory ∧
      mapper.map memory (MemoryMapping.new ⟨0x12⟩ 0x40000 101) =
        .ok (.mapperTableRegionEnd, after) ∧
      mapper.statuses memory [MemoryMapping.new ⟨0x12⟩ 0x200 102] = .ok [.ok] ∧
      after.1.statuses after.2 [MemoryMapping.new ⟨0x12⟩ 0x200 102] =
        .ok [.mapperTableRegionEnd] := by
  -- The statuses are computed once, and the states are read off from them.
  obtain ⟨mapper, memory, new, without, failing⟩ : ∃ mapper memory,
      SimpleMemoryMapper.new PhysMemory.new .sv39 1 5 = .ok (mapper, memory) ∧
      mapper.statuses memory
        [MemoryMapping.new ⟨0x12⟩ 0 100, MemoryMapping.new ⟨0x12⟩ 0x200 102] = .ok [.ok, .ok] ∧
      mapper.statuses memory [MemoryMapping.new ⟨0x12⟩ 0 100,
        MemoryMapping.new ⟨0x12⟩ 0x40000 101, MemoryMapping.new ⟨0x12⟩ 0x200 102] =
          .ok [.ok, .mapperTableRegionEnd, .mapperTableRegionEnd] :=
    ⟨_, _, rfl, by decide +kernel, by decide +kernel⟩
  obtain ⟨mapped, called, without⟩ := SimpleMemoryMapper.statuses_cons.mp without
  obtain ⟨_, same, failing⟩ := SimpleMemoryMapper.statuses_cons.mp failing
  rw [called] at same
  cases same
  obtain ⟨after, ended, later⟩ := SimpleMemoryMapper.statuses_cons.mp failing
  exact ⟨mapped.1, mapped.2, after, .map ⟨⟨0x12⟩, 0, 100, .ok⟩ (.new new) called, ended, without,
    later⟩

/-- The call that takes the last table fails safely. -/
theorem Built.map_failed_outOfTables : ∃ mapper memory after,
    Built .sv39 1 5 [⟨⟨0x12⟩, 0, 100, .ok⟩] mapper memory ∧
      mapper.map memory (MemoryMapping.new ⟨0x12⟩ 0x40000 101) =
        .ok (.mapperTableRegionEnd, after) ∧
      FailsSafely mapper memory .mapperTableRegionEnd after := by
  obtain ⟨mapper, memory, after, built, result, _⟩ := Built.exists_outOfTables
  exact ⟨mapper, memory, after, built, result,
    built.map_failed (show modeToLevels .sv39 = .ok 3 from rfl) (by decide) _ result (by decide)⟩

/-- The call that takes the last table moves the position and takes the table from a later call. -/
theorem map_failed_traces : ∃ mapper memory after,
    Built .sv39 1 5 [⟨⟨0x12⟩, 0, 100, .ok⟩] mapper memory ∧
      mapper.map memory (MemoryMapping.new ⟨0x12⟩ 0x40000 101) =
        .ok (.mapperTableRegionEnd, after) ∧
      after.1.currTable ≠ mapper.currTable ∧
      mapper.statuses memory [MemoryMapping.new ⟨0x12⟩ 0x200 102] = .ok [.ok] ∧
      after.1.statuses after.2 [MemoryMapping.new ⟨0x12⟩ 0x200 102] =
        .ok [.mapperTableRegionEnd] := by
  obtain ⟨mapper, memory, after, built, result, without, later⟩ := Built.exists_outOfTables
  refine ⟨mapper, memory, after, built, result, ?_, without, later⟩
  intro still
  have translating : modeToLevels .sv39 = .ok 3 := rfl
  obtain ⟨mode, _, _, tables, represents⟩ :=
    built.represents (by decide) translating (modeToLevels_bounds translating)
  rw [← mode] at translating
  -- A call that found no table free would have changed nothing.
  obtain ⟨_, behind⟩ := represents.behind_of_outOfTables translating result
  have full : mapper.currTable = mapper.tableRegionEnd := by
    rw [← still, behind.full, behind.region.2]
  rw [represents.map_unchanged translating result (by decide) fun _ => full, without] at later
  cases later

/-- With tables whose numbers do not fit in entries, other failures leave a table behind as well. -/
theorem map_failed_highRegion : ∃ mapper memory after,
    Built .sv39 0xfffffffffff 0x100000000001 [] mapper memory ∧
      mapper.map memory (MemoryMapping.new ⟨0x12⟩ 0 100) = .ok (.physMemAccessFault, after) ∧
      after.1.currTable ≠ mapper.currTable := by
  -- The link to the table 2 ^ 44 is cut to page zero, which is not there.
  obtain ⟨mapper, memory, new, first, ended⟩ : ∃ mapper memory,
      SimpleMemoryMapper.new PhysMemory.new .sv39 0xfffffffffff 0x100000000001 =
        .ok (mapper, memory) ∧
      mapper.currTable = 0x100000000000 ∧
      (mapper.map memory (MemoryMapping.new ⟨0x12⟩ 0 100)).map
        (fun result => (result.1, result.2.1.currTable)) =
          .ok (.physMemAccessFault, 0x100000000001) :=
    ⟨_, _, rfl, rfl, by decide +kernel⟩
  cases called : mapper.map memory (MemoryMapping.new ⟨0x12⟩ 0 100) with
  | error why =>
    rw [called] at ended
    cases ended
  | ok result =>
    obtain ⟨status, after⟩ := result
    rw [called] at ended
    obtain ⟨rfl, taken⟩ := Prod.mk.inj (Except.ok.inj ended)
    refine ⟨mapper, memory, after, .new new, called, ?_⟩
    rw [taken, first]
    decide

end RiscvSim

import RiscvSim.Proofs.Memory.Translation

/-! Which physical pages the calls of a builder make reachable. -/

namespace RiscvSim

/-- The flags of a call give an entry that translation accepts for some access. -/
def MapCall.Usable (call : MapCall) : Prop :=
  ((call.flags.r || call.flags.x) && !(call.flags.w && !call.flags.r)) = true

variable {mode : ModeValue} {first last : PPN} {levels : Nat} {history : List MapCall}
  {mapper : SimpleMemoryMapper} {memory : PhysMemory}

/-- An entry keeps the low 44 bits of a page number. -/
theorem createPTE_low (ppn : PPN) (flags : PTEFlags) :
    createPTE (BitVec.ofNat 64 (ppn.toNat % 2 ^ 44)) flags = createPTE ppn flags := by
  apply BitVec.eq_of_getLsbD_eq
  intro i _
  rw [getLsbD_createPTE, getLsbD_createPTE]
  by_cases inside : 10 ≤ i ∧ i ≤ 53
  · -- The field has no room for the bits that were cut off.
    rw [if_pos inside, if_pos inside, BitVec.getLsbD_ofNat, Nat.testBit_mod_two_pow]
    simp only [show i - 10 < 64 by omega, show i - 10 < 44 by omega, decide_true, Bool.true_and]
    rfl
  · rw [if_neg inside, if_neg inside]

/-- A mapped page is reached by the low 44 bits of its number. -/
theorem page_calcPhysAddr (mapping : MemoryMapping) (va : VirtAddr) :
    (calcPhysAddr (leafPTE mapping) va 0).toNat / 4096 = mapping.ppn.toNat % 2 ^ 44 := by
  -- Forty-four bits fit in a page number.
  have number : (BitVec.ofNat 64 (mapping.ppn.toNat % 2 ^ 44)).toNat =
      mapping.ppn.toNat % 2 ^ 44 := by
    rw [BitVec.toNat_ofNat]
    omega
  -- A mapping whose page number is cut gives the same entry.
  have cut := calcPhysAddr_leaf
    { mapping with ppn := BitVec.ofNat 64 (mapping.ppn.toNat % 2 ^ 44) } (by dsimp only; omega) va
  rw [leafPTE, createPTE_low] at cut
  rw [leafPTE, cut, BitVec.toNat_add, BitVec.toNat_mul, BitVec.toNat_umod, number,
    show (4096#64).toNat = 4096 from rfl]
  omega

/-- Usable flags admit an access by one of the two privilege levels. -/
theorem MapCall.Usable.admits {call : MapCall} (usable : call.Usable) :
    RiscvSim.admits {} (if call.flags.u then .user else .supervisor)
      (if call.flags.r then .read else .fetch) call.flags = true := by
  rw [Usable] at usable
  -- Usable flags pass the first test, so the permissions are left.
  rw [RiscvSim.admits, usable]
  -- The owner of the page may read what is readable, and otherwise execute.
  cases readable : call.flags.r with
  | true => cases user : call.flags.u <;> simp [checkLeafFlags, readable, user]
  | false =>
    have executable : call.flags.x = true := by
      simp only [readable, Bool.false_or, Bool.and_eq_true] at usable
      exact usable.1
    cases user : call.flags.u <;> simp [checkLeafFlags, executable, user]

/-- The flags of an access that is admitted are usable. -/
theorem MapCall.usable_of_admits {call : MapCall} {mstatus64 : MSTATUS64} {privLevel : PrivLevel}
    {accessType : AccessType}
    (admitted : RiscvSim.admits mstatus64 privLevel accessType call.flags = true) :
    call.Usable := by
  -- The first test of an access is that of the flags.
  rw [RiscvSim.admits, Bool.and_eq_true] at admitted
  exact admitted.1

/-- A successful call maps a page outside the region. -/
theorem Built.outside (built : Built mode first last history mapper memory)
    (small : last.toNat ≤ 2 ^ 44) (translating : modeToLevels mode = .ok levels) {call : MapCall}
    (member : call ∈ history) (ok : call.status = .ok) : ¬(first ≤ call.ppn ∧ call.ppn < last) := by
  -- The induction goes back to the call, which was made outside the region then.
  induction built with
  | new result => cases member
  | other after built same ih => exact ih member
  | map newest built result ih =>
    rcases List.mem_cons.mp member with rfl | old
    · obtain ⟨sameMode, sameFirst, sameLast, tables, represents⟩ :=
        built.represents small translating (modeToLevels_bounds translating)
      obtain ⟨other, same, step⟩ := map_step represents (by rwa [sameMode]) call.mapping
      rw [result] at same
      cases same
      split at step
      · -- A refused call does not succeed.
        rw [ok] at step
        cases (Prod.mk.inj step).1
      · rename_i outside
        rwa [sameFirst, sameLast] at outside
    · exact ih old

/-- Translation reaches exactly what successful calls mapped, through their entries. -/
theorem Built.translate_ok_iff (built : Built mode first last history mapper memory)
    (translating : modeToLevels mode = .ok levels) (small : last.toNat ≤ 2 ^ 44)
    (asid : BitVec 16) (mstatus64 : MSTATUS64) (privLevel : PrivLevel) (accessType : AccessType)
    (va pa : VirtAddr) :
    translate memory mstatus64 ⟨mode, asid, first⟩ privLevel accessType va = .ok ⟨.ok, pa⟩ ↔
      ∃ call ∈ history, call.status = .ok ∧ call.key levels = vpnKey levels va ∧
        admits mstatus64 privLevel accessType call.flags = true ∧
        pa = calcPhysAddr (leafPTE call.mapping) va 0 := by
  have levelsOk := modeToLevels_bounds translating
  obtain ⟨_, rfl, rfl, tables, represents⟩ := built.represents small translating levelsOk
  -- The tables spell what was mapped, so the walk finds the leaf of its key or none.
  rw [translate_eq represents translating]
  constructor
  · intro found
    cases mapped : mappedBy levels history (vpnKey levels va) with
    | none =>
      rw [mapped] at found
      cases found
    -- The leaf is that of a call, whose flags decide about the access.
    | some mapping =>
      obtain ⟨call, member, ok, key, rfl⟩ := mem_of_mappedBy mapped
      simp only [mapped, admits_mapping] at found
      split at found
      · rename_i admitted
        cases found
        exact ⟨call, member, ok, key, admitted, rfl⟩
      · cases found
  · -- The call is the one that its key was mapped by.
    rintro ⟨call, member, ok, key, admitted, rfl⟩
    have mapped := built.mappedBy_of_mem small translating levelsOk member ok
    simp only [← key, mapped, admits_mapping, if_pos admitted]

/-- A usable call that succeeded makes a page reachable. -/
theorem Built.exists_translate (built : Built mode first last history mapper memory)
    (translating : modeToLevels mode = .ok levels) (small : last.toNat ≤ 2 ^ 44) {call : MapCall}
    (member : call ∈ history) (ok : call.status = .ok) (usable : call.Usable) :
    ∃ privLevel accessType va pa,
      translate memory {} ⟨mode, 0, first⟩ privLevel accessType va = .ok ⟨.ok, pa⟩ ∧
        call.key levels = vpnKey levels va ∧ pa.toNat / 4096 = call.ppn.toNat % 2 ^ 44 := by
  have shallow := (modeToLevels_bounds translating).2
  -- The first address of the page has the key of the call.
  have key : call.key levels = vpnKey levels (call.vpn * BitVec.ofNat 64 pageSize) :=
    (vpnKey_vpn shallow call.vpn).symm
  refine ⟨_, _, _, _, (built.translate_ok_iff translating small 0 {} _ _ _ _).mpr
    ⟨call, member, ok, key, usable.admits, rfl⟩, key, page_calcPhysAddr call.mapping _⟩

/-- No access is translated to a page of the region. -/
def AvoidsRegion (mode : ModeValue) (first last : PPN) (memory : PhysMemory) : Prop :=
  ∀ asid mstatus64 privLevel accessType va pa,
    translate memory mstatus64 ⟨mode, asid, first⟩ privLevel accessType va = .ok ⟨.ok, pa⟩ →
    ¬(first.toNat ≤ pa.toNat / 4096 ∧ pa.toNat / 4096 < last.toNat)

/-- Every access is translated to the page that a successful call asked for. -/
def ReachesRequested (levels : Nat) (mode : ModeValue) (first : PPN) (history : List MapCall)
    (memory : PhysMemory) : Prop :=
  ∀ asid mstatus64 privLevel accessType va pa,
    translate memory mstatus64 ⟨mode, asid, first⟩ privLevel accessType va = .ok ⟨.ok, pa⟩ →
    ∃ call ∈ history, call.status = .ok ∧ call.key levels = vpnKey levels va ∧
      pa.toNat / 4096 = call.ppn.toNat

/-- The region is avoided exactly when no usable call maps one of its pages by the low bits. -/
theorem Built.avoidsRegion_iff (built : Built mode first last history mapper memory)
    (translating : modeToLevels mode = .ok levels) (small : last.toNat ≤ 2 ^ 44) :
    AvoidsRegion mode first last memory ↔ ∀ call ∈ history, call.status = .ok → call.Usable →
      ¬(first.toNat ≤ call.ppn.toNat % 2 ^ 44 ∧ call.ppn.toNat % 2 ^ 44 < last.toNat) := by
  constructor
  · -- A usable call is reached at its own page, which the region then cannot hold.
    intro avoids call member ok usable
    obtain ⟨_, _, _, _, reached, _, page⟩ := built.exists_translate translating small member ok usable
    rw [← page]
    exact avoids _ _ _ _ _ _ reached
  · -- An access reaches the page of some call by its low bits.
    intro outside asid mstatus64 privLevel accessType va pa reached
    obtain ⟨call, member, ok, _, admitted, rfl⟩ :=
      (built.translate_ok_iff translating small _ _ _ _ _ _).mp reached
    rw [page_calcPhysAddr]
    exact outside call member ok (MapCall.usable_of_admits admitted)

/-- The requested pages are reached exactly when the numbers of usable calls fit in entries. -/
theorem Built.reachesRequested_iff (built : Built mode first last history mapper memory)
    (translating : modeToLevels mode = .ok levels) (small : last.toNat ≤ 2 ^ 44) :
    ReachesRequested levels mode first history memory ↔
      ∀ call ∈ history, call.status = .ok → call.Usable → call.ppn.toNat < 2 ^ 44 := by
  constructor
  · intro reaches call member ok usable
    obtain ⟨_, _, _, _, reached, key, page⟩ :=
      built.exists_translate translating small member ok usable
    obtain ⟨other, otherMember, otherOk, otherKey, otherPage⟩ := reaches _ _ _ _ _ _ reached
    -- No later call takes the key over, so both calls ask for the same page.
    have levelsOk := modeToLevels_bounds translating
    have mapped := built.mappedBy_of_mem small translating levelsOk member ok
    have otherMapped := built.mappedBy_of_mem small translating levelsOk otherMember otherOk
    rw [key, ← otherKey, otherMapped] at mapped
    have same : other.ppn = call.ppn := congrArg MemoryMapping.ppn (Option.some.inj mapped)
    rw [← same, ← otherPage, page]
    exact Nat.mod_lt _ (by decide)
  · -- A number that fits is not cut.
    intro fits asid mstatus64 privLevel accessType va pa reached
    obtain ⟨call, member, ok, key, admitted, rfl⟩ :=
      (built.translate_ok_iff translating small _ _ _ _ _ _).mp reached
    refine ⟨call, member, ok, key, ?_⟩
    rw [page_calcPhysAddr]
    exact Nat.mod_eq_of_lt (fits call member ok (MapCall.usable_of_admits admitted))

/-- The guard of the region holds exactly when no usable call has a page number above the field. -/
theorem Built.guardsRegion_iff (built : Built mode first last history mapper memory)
    (translating : modeToLevels mode = .ok levels) (small : last.toNat ≤ 2 ^ 44) :
    (AvoidsRegion mode first last memory ∧ ReachesRequested levels mode first history memory ↔
      ∀ call ∈ history, call.status = .ok → call.Usable → call.ppn.toNat < 2 ^ 44) ∧
    (AvoidsRegion mode first last memory ↔ ∀ call ∈ history, call.status = .ok → call.Usable →
      ¬(first.toNat ≤ call.ppn.toNat % 2 ^ 44 ∧ call.ppn.toNat % 2 ^ 44 < last.toNat)) := by
  refine ⟨?_, built.avoidsRegion_iff translating small⟩
  constructor
  · intro guards
    exact (built.reachesRequested_iff translating small).mp guards.2
  · intro fits
    refine ⟨(built.avoidsRegion_iff translating small).mpr ?_,
      (built.reachesRequested_iff translating small).mpr fits⟩
    -- A number that fits is the one that the guard looked at.
    intro call member ok usable
    rw [Nat.mod_eq_of_lt (fits call member ok usable)]
    exact built.outside small translating member ok

/-- The guard of a region around a page that was mapped. -/
theorem Built.guardsRegion_iff_page : ∃ mapper memory,
    Built .sv39 1 8 [⟨⟨0x12⟩, 5, 100, .ok⟩] mapper memory ∧
      (AvoidsRegion .sv39 1 8 memory ∧
          ReachesRequested 3 .sv39 1 [⟨⟨0x12⟩, 5, 100, .ok⟩] memory ↔
        ∀ call ∈ [(⟨⟨0x12⟩, 5, 100, .ok⟩ : MapCall)], call.status = .ok → call.Usable →
          call.ppn.toNat < 2 ^ 44) := by
  obtain ⟨mapper, memory, built⟩ := @Built.exists_page ⟨0x12⟩ 100 (by decide)
  exact ⟨mapper, memory, built, (built.guardsRegion_iff rfl (by decide)).1⟩

/-- A page of the region is reached through a number that is too large for its entry. -/
theorem not_avoidsRegion :
    ¬∀ (mode : ModeValue) (first last : PPN) (levels : Nat) (history : List MapCall)
      (mapper : SimpleMemoryMapper) (memory : PhysMemory),
      Built mode first last history mapper memory → modeToLevels mode = .ok levels →
      last.toNat ≤ 2 ^ 44 → AvoidsRegion mode first last memory := by
  intro avoids
  obtain ⟨mapper, memory, built⟩ := @Built.exists_page ⟨0x12⟩ 0x100000000001 (by decide)
  have translating : modeToLevels .sv39 = .ok 3 := rfl
  obtain ⟨_, _, _, _, reached, _, page⟩ :=
    built.exists_translate translating (by decide) List.mem_cons_self rfl rfl
  -- The number 2 ^ 44 + 1 is cut to the first page of the region.
  refine avoids _ _ _ _ _ _ _ built translating (by decide) _ _ _ _ _ _ reached ?_
  rw [page]
  decide

end RiscvSim

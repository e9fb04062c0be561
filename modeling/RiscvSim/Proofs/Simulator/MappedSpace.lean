import RiscvSim.Proofs.ElfLoad.Loading
import RiscvSim.Proofs.Simulator.FlatRefinement
import RiscvSim.Proofs.Simulator.Isolation

/-! The pages that a builder of tables has mapped for a user, as an address space. -/

namespace RiscvSim

open RadixTables (digit digit_lt keyPrefix)
open Transition (run visited)

namespace Represents

variable {levels : Nat} {mapper : SimpleMemoryMapper} {tables : RadixTables.Tables}
  {mapped : Nat → Option MemoryMapping} {memory : PhysMemory}

/-- The entry that a virtual address selects in a table lies in the region. -/
theorem inRegion_entry (represents : Represents levels mapper tables mapped memory) (va : VirtAddr)
    {i t : Nat} (found : tables i (keyPrefix 512 (vpnKey levels va) i) = some t) {addr : PhysAddr}
    (inside : ByteStore.InRun (pteAddr (BitVec.ofNat 64 t) va i) pteBytes addr) :
    mapper.InRegion addr := by
  obtain ⟨lower, upper, small, below⟩ := represents.table_bounds found
  have bound := digit_lt (vpnKey levels va) i (show 0 < 512 by decide)
  rw [pteAddr_eq va below represents.shallow] at inside
  -- The bytes of the entry lie in the page of its table.
  have range := (toNat_sub_lt_iff addr _ (fits_entry small bound)).mp inside
  rw [toNat_entryAddr small bound, pteBytes] at range
  exact ⟨by omega, by omega⟩

/-- The entries that a walk of the tables reads lie in the region. -/
theorem walkEntries_inRegion (represents : Represents levels mapper tables mapped memory)
    (va : VirtAddr) {i t : Nat} (found : tables i (keyPrefix 512 (vpnKey levels va) i) = some t) :
    ∀ pte ∈ walkEntries memory va i (BitVec.ofNat 64 t), ∀ addr,
      ByteStore.InRun pte pteBytes addr → mapper.InRegion addr := by
  intro pte member addr inside
  -- By induction on the level, the entries behind the first are those of a table that it links.
  induction i generalizing t with
  | zero =>
    unfold walkEntries at member
    rcases List.mem_cons.mp member with rfl | later
    · exact represents.inRegion_entry va found inside
    · -- There is no table below the lowest level.
      split at later
      · cases later
      · split at later
        · cases later
        · split at later <;> cases later
  | succ i ih =>
    unfold walkEntries at member
    rcases List.mem_cons.mp member with rfl | later
    · exact represents.inRegion_entry va found inside
    · obtain ⟨ok, dst⟩ := represents.read_entry va found
      rw [ok, dst, represents.holds.entry_link (by decide) found] at later
      cases child : tables i (keyPrefix 512 (vpnKey levels va) i) with
      | none => simp [child] at later
      | some u =>
        obtain ⟨_, wellFormed, inner, ppn⟩ := linkTo_reads (represents.table_bounds child).2.2.1
        refine ih child ?_
        simpa [child, wellFormed, inner, ppn] using later

end Represents

/-- A call has made a page reachable for the user. -/
def MapCall.UserPage (call : MapCall) : Prop :=
  call.status = .ok ∧ call.Usable ∧ call.flags.u = true

/-- A user reaches a page in some way when its flags are usable and the user's. -/
theorem MapCall.exists_admits_iff (call : MapCall) (mstatus64 : MSTATUS64) :
    (∃ accessType, admits mstatus64 .user accessType call.flags = true) ↔
      call.Usable ∧ call.flags.u = true := by
  constructor
  · rintro ⟨accessType, admitted⟩
    refine ⟨MapCall.usable_of_admits admitted, ?_⟩
    -- Every access of a user needs the flag.
    rw [admits, Bool.and_eq_true] at admitted
    cases accessType <;> simp [checkLeafFlags] at admitted <;> exact admitted.2.2
  · rintro ⟨usable, user⟩
    rw [Usable] at usable
    cases readable : call.flags.r with
    | true => exact ⟨.read, by simp [admits, checkLeafFlags, readable, user]⟩
    | false =>
      -- A page that cannot be read can be executed.
      have executable : call.flags.x = true := by
        simp only [readable, Bool.false_or, Bool.and_eq_true] at usable
        exact usable.1
      exact ⟨.fetch, by rw [admits, usable]; simp [checkLeafFlags, executable, user]⟩

/-- No physical page is handed to the user under two keys. -/
def Unshared (levels : Nat) (history : List MapCall) : Prop :=
  ∀ call ∈ history, ∀ other ∈ history, call.UserPage → other.UserPage → call.ppn = other.ppn →
    call.key levels = other.key levels

section mapped

variable {mode : ModeValue} {first last : PPN} {levels : Nat} {history : List MapCall}
  {mapper : SimpleMemoryMapper} {plain : Plain}

/-- Under the width of its key, the bits of an address that matter are its key and its offset. -/
theorem setWidth_eq_iff_key (levels : Nat) (va other : VirtAddr) :
    va.setWidth (12 + 9 * levels) = other.setWidth (12 + 9 * levels) ↔
      vpnKey levels va = vpnKey levels other ∧ va.toNat % 4096 = other.toNat % 4096 := by
  have radix : (512 : Nat) ^ levels = 2 ^ (9 * levels) := (Nat.pow_mul 2 9 levels).symm
  have low (va : VirtAddr) : va.toNat % 2 ^ (12 + 9 * levels) =
      4096 * vpnKey levels va + va.toNat % 4096 := by
    rw [vpnKey, radix, Nat.pow_add, Nat.mod_mul, Nat.add_comm]
  rw [← BitVec.toNat_inj, BitVec.toNat_setWidth, BitVec.toNat_setWidth, low, low]
  omega

variable (built : Built mode first last history mapper plain.physMemory)
  (translating : modeToLevels mode = .ok levels) (small : last.toNat ≤ 2 ^ 44)
  (selected : plain.hart.csrFile.satp64.mode = mode ∧ plain.hart.csrFile.satp64.ppn = first)

include built translating small selected

/-- The user reaches the pages of the calls that admit it. -/
theorem Built.translateVa_ok_iff (ppns : ∀ call ∈ history, call.ppn.toNat < 2 ^ 44)
    (accessType : AccessType) (va pa : VirtAddr) :
    plain.translateVa accessType va = .ok ⟨.ok, pa⟩ ↔
      ∃ call ∈ history, call.status = .ok ∧ call.key levels = vpnKey levels va ∧
        admits plain.hart.csrFile.mstatus64 .user accessType call.flags = true ∧
        pa = call.ppn * 4096#64 + va % 4096#64 := by
  obtain ⟨rfl, rfl⟩ := selected
  -- The page number of a call is read back from its entry.
  have place (call : MapCall) (member : call ∈ history) :
      calcPhysAddr (leafPTE call.mapping) va 0 = call.ppn * 4096#64 + va % 4096#64 :=
    calcPhysAddr_leaf call.mapping (ppns call member) va
  refine (built.translate_ok_iff translating small _ _ _ _ _ _).trans ?_
  constructor
  · rintro ⟨call, member, ok, key, admitted, rfl⟩
    exact ⟨call, member, ok, key, admitted, place call member⟩
  · rintro ⟨call, member, ok, key, admitted, rfl⟩
    exact ⟨call, member, ok, key, admitted, (place call member).symm⟩

/-- Every translation has a result, and a failed one is a page fault. -/
theorem Built.translateVa_total (accessType : AccessType) (va : VirtAddr) :
    plain.translateVa accessType va = .ok ⟨.mmu64PageFault, 0⟩ ∨
      ∃ pa, plain.translateVa accessType va = .ok ⟨.ok, pa⟩ := by
  obtain ⟨rfl, rfl⟩ := selected
  obtain ⟨_, same, _, tables, represents⟩ :=
    built.represents small translating (modeToLevels_bounds translating)
  have found : plain.translateVa accessType va = _ :=
    same ▸ translate_eq represents translating plain.hart.csrFile.satp64.asid
      plain.hart.csrFile.mstatus64 .user accessType va
  rw [found]
  -- The mapping of the key, if there is one, admits the access or not.
  cases mappedBy levels history (vpnKey levels va) with
  | none => exact .inl rfl
  | some mapping =>
    dsimp only
    split
    · exact .inr ⟨_, rfl⟩
    · exact .inl rfl

/-- The bytes of the entries that translation reads lie in the region. -/
theorem Built.tableEntries_inRegion (va : VirtAddr) :
    ∀ pte ∈ tableEntries plain.physMemory plain.hart.csrFile.satp64 va, ∀ addr,
      ByteStore.InRun pte pteBytes addr →
        first.toNat ≤ addr.toNat / 4096 ∧ addr.toNat / 4096 < last.toNat := by
  obtain ⟨rfl, first⟩ := selected
  obtain ⟨_, begin, rfl, tables, represents⟩ :=
    built.represents small translating (modeToLevels_bounds translating)
  have entries := represents.walkEntries_inRegion va (represents.root va)
  rw [BitVec.ofNat_toNat, BitVec.setWidth_eq, begin] at entries
  intro pte member addr inside
  simp only [tableEntries, translating, first] at member
  have inRegion := entries pte member addr inside
  rwa [SimpleMemoryMapper.InRegion, begin] at inRegion

/-- An address space shares no page. -/
theorem Built.unshared_of_space (ppns : ∀ call ∈ history, call.ppn.toNat < 2 ^ 44)
    (space : plain.Space (12 + 9 * levels)) : Unshared levels history := by
  have reaches := built.translateVa_ok_iff translating small selected ppns
  have shallow := (modeToLevels_bounds translating).2
  intro call member other otherMember user otherUser same
  -- Both calls let the user reach the first byte of the page.
  obtain ⟨accessType, admitted⟩ :=
    (call.exists_admits_iff plain.hart.csrFile.mstatus64).mpr user.2
  obtain ⟨otherType, otherAdmitted⟩ :=
    (other.exists_admits_iff plain.hart.csrFile.mstatus64).mpr otherUser.2
  have key := vpnKey_vpn shallow call.vpn
  have otherKey := vpnKey_vpn shallow other.vpn
  have found := (reaches accessType (call.vpn * BitVec.ofNat 64 pageSize) _).mpr
    ⟨call, member, user.1, key.symm, admitted, rfl⟩
  have otherFound := (reaches otherType (other.vpn * BitVec.ofNat 64 pageSize) _).mpr
    ⟨other, otherMember, otherUser.1, otherKey.symm, otherAdmitted, rfl⟩
  have start (vpn : VPN) : vpn * BitVec.ofNat 64 pageSize % 4096#64 = 0 := by
    apply BitVec.eq_of_toNat_eq
    rw [BitVec.toNat_umod, BitVec.toNat_mul, show (BitVec.ofNat 64 pageSize).toNat = 4096 from rfl,
      show (4096#64).toNat = 4096 from rfl, show (0 : VirtAddr).toNat = 0 from rfl]
    omega
  rw [start] at found otherFound
  rw [← same] at otherFound
  have once := space.unshared _ _ _ _ _ found otherFound
  have keys := ((setWidth_eq_iff_key levels _ _).mp once).1
  rwa [key, otherKey] at keys

/-- Pages that are not shared are an address space. -/
theorem Built.space_of_unshared (ppns : ∀ call ∈ history, call.ppn.toNat < 2 ^ 44)
    (unshared : Unshared levels history) : plain.Space (12 + 9 * levels) := by
  have reaches := built.translateVa_ok_iff translating small selected ppns
  refine ⟨?_, ?_, ?_, ?_⟩
  · rw [selected.1, addressBits, translating]
  · intro accessType va
    rcases built.translateVa_total translating small selected accessType va with fault | ok
    · exact ⟨_, fault⟩
    · exact ⟨_, ok.choose_spec⟩
  · -- A page that is mapped lies outside the region, unlike the entries.
    intro va pa found other pte member inside
    obtain ⟨call, mapped, ok, _, _, rfl⟩ := (reaches _ _ _).mp found
    have inRegion := built.tableEntries_inRegion translating small selected other pte member _ inside
    have place := ElfLoader.toNat_inPage (ppns call mapped) va
    refine built.outside small translating mapped ok ?_
    rw [BitVec.le_def, BitVec.lt_def]
    omega
  · -- A byte tells its page and with it the key, and its offset in the page.
    intro accessType other va vaOther pa found foundOther
    obtain ⟨call, member, ok, key, admitted, rfl⟩ := (reaches _ _ _).mp found
    obtain ⟨callOther, memberOther, okOther, keyOther, admittedOther, same⟩ :=
      (reaches _ _ _).mp foundOther
    have place := ElfLoader.toNat_inPage (ppns call member) va
    have placeOther := ElfLoader.toNat_inPage (ppns callOther memberOther) vaOther
    rw [same] at place
    have pages : call.ppn = callOther.ppn := by
      apply BitVec.eq_of_toNat_eq
      omega
    rw [setWidth_eq_iff_key, ← key, ← keyOther]
    refine ⟨unshared call member callOther memberOther ?_ ?_ pages, by omega⟩
    · exact ⟨ok, (call.exists_admits_iff _).mp ⟨_, admitted⟩⟩
    · exact ⟨okOther, (callOther.exists_admits_iff _).mp ⟨_, admittedOther⟩⟩

/-- Where an access of the user ends is told by the mapping of the key. -/
theorem Built.reach_eq (ppns : ∀ call ∈ history, call.ppn.toNat < 2 ^ 44) (accessType : AccessType)
    (va : VirtAddr) : plain.reach accessType va =
      match mappedBy levels history (vpnKey levels va) with
      | none => .error .mmu64PageFault
      | some mapping =>
        if admits plain.hart.csrFile.mstatus64 .user accessType mapping.flags then
          if plain.physMemory.HasPage (mapping.ppn * 4096#64 + va % 4096#64) then
            .ok (mapping.ppn * 4096#64 + va % 4096#64)
          else .error .physMemAccessFault
        else .error .mmu64PageFault := by
  obtain ⟨rfl, rfl⟩ := selected
  obtain ⟨_, same, _, tables, represents⟩ :=
    built.represents small translating (modeToLevels_bounds translating)
  have found : plain.translateVa accessType va = _ :=
    same ▸ translate_eq represents translating plain.hart.csrFile.satp64.asid
      plain.hart.csrFile.mstatus64 .user accessType va
  simp only [Plain.reach, found]
  cases mapped : mappedBy levels history (vpnKey levels va) with
  | none => rfl
  | some mapping =>
    obtain ⟨call, member, _, _, rfl⟩ := mem_of_mappedBy mapped
    have place : calcPhysAddr (leafPTE call.mapping) va 0 =
        call.mapping.ppn * 4096#64 + va % 4096#64 :=
      calcPhysAddr_leaf call.mapping (ppns call member) va
    -- The flags are checked before the page is looked for.
    by_cases admitted : admits plain.hart.csrFile.mstatus64 .user accessType
        call.mapping.flags = true
    · simp only [if_pos admitted, place, ne_eq, not_true, if_false]
    · simp only [if_neg admitted]
      rfl

/-- What was mapped is an address space exactly when no page is handed out under two keys. -/
theorem Built.space_iff_unshared (ppns : ∀ call ∈ history, call.ppn.toNat < 2 ^ 44) :
    plain.Space (12 + 9 * levels) ↔ Unshared levels history :=
  ⟨built.unshared_of_space translating small selected ppns,
    built.space_of_unshared translating small selected ppns⟩

end mapped

/-- The address space of a page that was mapped. -/
theorem Built.space_iff_unshared_page : ∃ mapper memory,
    Built .sv39 1 8 [⟨⟨0x12⟩, 5, 100, .ok⟩] mapper memory ∧
      (Plain.Space (12 + 9 * 3)
          { hart := { csrFile := { satp64 := ⟨.sv39, 0, 1⟩ } }, physMemory := memory } ↔
        Unshared 3 [⟨⟨0x12⟩, 5, 100, .ok⟩]) := by
  obtain ⟨mapper, memory, built⟩ := @Built.exists_page ⟨0x12⟩ 100 (by decide)
  have translating : modeToLevels .sv39 = .ok 3 := rfl
  exact ⟨mapper, memory, built, Built.space_iff_unshared built translating (by decide) ⟨rfl, rfl⟩
    (by decide)⟩

/-- A page is there when one of its bytes is. -/
theorem PhysMemory.hasPage_inPage {memory : PhysMemory} {ppn : PPN} (fits : ppn.toNat < 2 ^ 44)
    (va : VirtAddr) :
    memory.HasPage (ppn * 4096#64 + va % 4096#64) ↔ memory.HasPage (ppn * 4096#64) := by
  have same : pageBase (ppn * 4096#64 + va % 4096#64) = pageBase (ppn * 4096#64) := by
    rw [pageBase_eq_iff, ElfLoader.toNat_inPage fits, BitVec.toNat_mul,
      show (4096#64).toNat = 4096 from rfl]
    omega
  rw [HasPage, HasPage, same]

/-- The kinds of access. -/
def AccessType.all : List AccessType := [.read, .write, .fetch]

/-- Every kind of access is listed. -/
theorem AccessType.mem_all (accessType : AccessType) : accessType ∈ AccessType.all := by
  cases accessType <;> decide

/-- The hart with the address space that a history of calls gives to the user. -/
def Plain.mapped (levels : Nat) (history : List MapCall) (plain : Plain) :
    Flat (12 + 9 * levels) where
  toCore := plain.toCore
  denial accessType addr :=
    match mappedBy levels history (addr.toNat / 4096) with
    | none => some .mmu64PageFault
    | some mapping =>
      if admits plain.hart.csrFile.mstatus64 .user accessType mapping.flags then
        -- A page that is mapped need not be one of RAM.
        if plain.physMemory.HasPage (mapping.ppn * 4096#64) then none
        else some .physMemAccessFault
      else some .mmu64PageFault
  bytes addr :=
    match mappedBy levels history (addr.toNat / 4096) with
    | none => none
    | some mapping =>
      if AccessType.all.any (admits plain.hart.csrFile.mstatus64 .user · mapping.flags) then
        plain.physMemory.bytes (mapping.ppn * 4096#64 + addr.setWidth 64 % 4096#64)
      else none

section mapped

variable {mode : ModeValue} {first last : PPN} {levels : Nat} {history : List MapCall}
  {mapper : SimpleMemoryMapper} {plain : Plain}

/-- The address space that the user sees is the one that was mapped. -/
theorem Built.flat_eq (built : Built mode first last history mapper plain.physMemory)
    (translating : modeToLevels mode = .ok levels) (small : last.toNat ≤ 2 ^ 44)
    (selected : plain.hart.csrFile.satp64.mode = mode ∧ plain.hart.csrFile.satp64.ppn = first)
    (ppns : ∀ call ∈ history, call.ppn.toNat < 2 ^ 44) :
    plain.flat (12 + 9 * levels) = plain.mapped levels history := by
  have reach := built.reach_eq translating small selected ppns
  have shallow := (modeToLevels_bounds translating).2
  -- An address of the space is its key and its offset.
  have key (addr : BitVec (12 + 9 * levels)) :
      vpnKey levels (addr.setWidth 64) = addr.toNat / 4096 := by
    have bound := addr.isLt
    rw [Nat.pow_add, show (2 : Nat) ^ 12 = 4096 from rfl] at bound
    have limit : 2 ^ (12 + 9 * levels) ≤ 2 ^ 64 := Nat.pow_le_pow_right (by decide) (by omega)
    rw [vpnKey, BitVec.toNat_setWidth, Nat.mod_eq_of_lt (Nat.lt_of_lt_of_le addr.isLt limit),
      show (512 : Nat) ^ levels = 2 ^ (9 * levels) from (Nat.pow_mul 2 9 levels).symm]
    exact Nat.mod_eq_of_lt (Nat.div_lt_of_lt_mul bound)
  have denial : (plain.flat (12 + 9 * levels)).denial = (plain.mapped levels history).denial := by
    funext accessType addr
    simp only [Plain.flat, Plain.mapped, reach, key]
    cases mapped : mappedBy levels history (addr.toNat / 4096) with
    | none => rfl
    | some mapping =>
      obtain ⟨call, member, _, _, rfl⟩ := mem_of_mappedBy mapped
      simp only [PhysMemory.hasPage_inPage (show call.mapping.ppn.toNat < 2 ^ 44 from
        ppns call member)]
      by_cases admitted : admits plain.hart.csrFile.mstatus64 .user accessType
          call.mapping.flags = true
      · by_cases here : plain.physMemory.HasPage (call.mapping.ppn * 4096#64)
        · simp only [if_pos admitted, if_pos here]
        · simp only [if_pos admitted, if_neg here]
      · simp only [if_neg admitted]
  have bytes : (plain.flat (12 + 9 * levels)).bytes = (plain.mapped levels history).bytes := by
    funext addr
    have reached (accessType : AccessType) := reach accessType (addr.setWidth 64)
    simp only [key] at reached
    simp only [Plain.flat, Plain.mapped]
    cases seen : plain.seen (addr.setWidth 64) with
    | some pa =>
      -- What is seen is reached by some access that the mapping admits.
      obtain ⟨accessType, found⟩ := Plain.reach_of_seen seen
      rw [reached] at found
      cases mapped : mappedBy levels history (addr.toNat / 4096) with
      | none =>
        rw [mapped] at found
        cases found
      | some mapping =>
        simp only [mapped] at found
        split at found
        · rename_i admitted
          have some : AccessType.all.any
              (admits plain.hart.csrFile.mstatus64 .user · mapping.flags) = true :=
            List.any_eq_true.mpr ⟨accessType, accessType.mem_all, admitted⟩
          split at found
          · cases found
            simp only [if_pos some, Option.bind_some]
          · cases found
        · cases found
    | none =>
      cases mapped : mappedBy levels history (addr.toNat / 4096) with
      | none => rfl
      | some mapping =>
        dsimp only [Option.bind_none]
        split
        · -- The page that an access is admitted to is not there.
          rename_i some
          obtain ⟨accessType, _, admitted⟩ := List.any_eq_true.mp some
          have failed := reached accessType
          simp only [mapped, if_pos admitted] at failed
          split at failed
          · cases seen.symm.trans (Plain.seen_of_reach failed)
          · rename_i missing
            rw [← PhysMemory.isSome_bytes, Option.not_isSome_iff_eq_none] at missing
            exact missing.symm
        · rfl
  exact congrArg₂ (Flat.mk plain.toCore) denial bytes

/-- A calm guest in pages that were mapped for it alone runs on the address space of the calls. -/
theorem Built.refines_mapped {sim : Simulator} {startPc : VirtAddr}
    (built : Built mode first last history mapper sim.physMemory)
    (translating : modeToLevels mode = .ok levels) (small : last.toNat ≤ 2 ^ 44)
    (selected : sim.hart.csrFile.satp64.mode = mode ∧ sim.hart.csrFile.satp64.ppn = first)
    (ppns : ∀ call ∈ history, call.ppn.toNat < 2 ^ 44) (unshared : Unshared levels history)
    (fresh : sim.Fresh) (calm : ((sim.start startPc).plain.mapped levels history).Calm) :
    (sim.start startPc).plain.flat (12 + 9 * levels) =
        (sim.start startPc).plain.mapped levels history ∧
      sim.RefinesFlat (12 + 9 * levels) startPc := by
  have same : (sim.start startPc).plain.flat (12 + 9 * levels) = _ :=
    Built.flat_eq built translating small selected ppns
  have space : (sim.start startPc).plain.Space (12 + 9 * levels) :=
    built.space_of_unshared translating small selected ppns unshared
  exact ⟨same, Simulator.refinesFlat_of_calm fresh space (same ▸ calm)⟩

end mapped

/-- A guest that executes, loads and stores in its page runs on the address space of the call. -/
theorem Built.refines_mapped_program : ∃ mapper memory,
    Built .sv39 1 8 [programCall] mapper memory ∧
      Simulator.RefinesFlat 39 (Simulator.withTables 1 memory) 0x5000 ∧
      ∃ n, SimResult.stoppedStatus (run Flat.step n
        (((Simulator.withTables 1 memory).start 0x5000).plain.mapped 3 [programCall])) =
          some .ok := by
  -- The run on the address space of the call is checked state by state.
  have checked : (buildTables .sv39 1 8 (Simulator.holdingProgram 0x64000).physMemory
      [programCall]).any (fun made =>
        let first := ((Simulator.withTables 1 made.2).start 0x5000).plain.mapped 3 [programCall]
        SimResult.stoppedStatus (run Flat.step 5 first) == some .ok &&
          (run Flat.step 5 first).stops &&
          (visited Flat.step 5 first).all (Flat.keepsWords (Simulator.programWords 0x5000))) =
            true := by
    decide +kernel
  obtain ⟨⟨mapper, memory⟩, computed, passed⟩ := (Option.any_eq_true _ _).mp checked
  have built := Built.of_buildTables computed
  simp only [Bool.and_eq_true] at passed
  obtain ⟨⟨ended, stops⟩, kept⟩ := passed
  refine ⟨mapper, memory, built, ?_, 5, eq_of_beq ended⟩
  refine (Built.refines_mapped built (show modeToLevels .sv39 = .ok 3 from rfl) (by decide)
    ⟨rfl, rfl⟩ (by decide) ?_ ⟨rfl, rfl, rfl, rfl⟩ (Flat.calm_of_checked _ 5 stops kept)).2
  -- There is one call alone.
  intro call member other otherMember _ _ _
  rw [List.mem_singleton.mp member, List.mem_singleton.mp otherMember]

end RiscvSim

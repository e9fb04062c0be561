import RiscvSim.Proofs.Memory.PagingRules
import RiscvSim.Proofs.Simulator.Tlb
import RiscvSim.Simulator.Flat

/-! The address space behind translation tables: an interpreter with tables is one without. -/

namespace RiscvSim

open PhysMemory (Fits)

/-- The number of address bits that a mode looks at. -/
def addressBits (mode : ModeValue) : Nat :=
  match modeToLevels mode with
  -- Without tables an address is taken as it is.
  | .error _ => 64
  | .ok levels => 12 + 9 * levels

/-- Addresses have at least an offset in a page, and are no wider than a register. -/
theorem addressBits_bounds (mode : ModeValue) : 12 ≤ addressBits mode ∧ addressBits mode ≤ 64 := by
  cases mode <;> decide

/-- All accesses that are allowed go to the same place. -/
theorem translate_place {memory : PhysMemory} {mstatus64 : MSTATUS64} {satp64 : SATP64}
    {privLevel : PrivLevel} {accessType other : AccessType} {va pa place : VirtAddr}
    (found : translate memory mstatus64 satp64 privLevel accessType va = .ok ⟨.ok, pa⟩)
    (foundOther : translate memory mstatus64 satp64 privLevel other va = .ok ⟨.ok, place⟩) :
    pa = place := by
  unfold translate at found foundOther
  split at found
  · rename_i bare
    rw [if_pos bare] at foundOther
    cases found
    cases foundOther
    rfl
  · rename_i paged
    rw [if_neg paged] at foundOther
    cases translating : modeToLevels satp64.mode with
    | error why =>
      rw [translating] at found
      cases found
    | ok levels =>
      simp only [translating] at found foundOther
      cases walked : walk memory va (levels - 1) satp64.ppn with
      | fault status =>
        have failed := walk_fault_ne walked
        simp only [walked, Except.ok.injEq, TranslateResult.mk.injEq] at found
        exact absurd found.1 failed
      | leaf i pte =>
        -- The place is computed from the leaf, which does not depend on the access.
        simp only [walked] at found foundOther
        have target {accessType : AccessType} {pa : VirtAddr}
            (found : (if !checkLeafFlags privLevel accessType (PTEFlags.ofPTE pte)
                (mstatus64.mxr ≠ 0) (mstatus64.sum ≠ 0) then
                  (.ok ⟨.mmu64PageFault, 0⟩ : Except Abort TranslateResult)
              else if 0 < i ∧ getBitField (ptePpnLo + ppnBitStep * i - 1) ptePpnLo pte ≠ 0 then
                .ok ⟨.mmu64PageFault, 0⟩
              else if !((PTEFlags.ofPTE pte).d && (PTEFlags.ofPTE pte).a) then .error .assertion
              else .ok ⟨.ok, calcPhysAddr pte va i⟩) = .ok ⟨.ok, pa⟩) :
            pa = calcPhysAddr pte va i := by
          split at found
          · cases found
          · split at found
            · cases found
            · split at found
              · cases found
              · cases found
                rfl
        rw [target found, target foundOther]

namespace Plain

variable {w : Nat} {plain : Plain}

/-- Where an access of the user ends: at a byte of RAM, or with a status. -/
def reach (plain : Plain) (accessType : AccessType) (va : VirtAddr) : Except SimStatus PhysAddr :=
  match plain.translateVa accessType va with
  | .error _ => .error .mmu64PageFault
  | .ok ⟨status, pa⟩ =>
    if status ≠ .ok then .error status
    else if plain.physMemory.HasPage pa then .ok pa
    else .error .physMemAccessFault

/-- The byte of RAM that some access of the user reaches. -/
def seen (plain : Plain) (va : VirtAddr) : Option PhysAddr :=
  match plain.reach .read va, plain.reach .write va, plain.reach .fetch va with
  | .ok pa, _, _ => some pa
  | _, .ok pa, _ => some pa
  | _, _, .ok pa => some pa
  | _, _, _ => none

/-- The hart with the address space that the user sees. -/
def flat (w : Nat) (plain : Plain) : Flat w where
  toCore := plain.toCore
  denial accessType addr :=
    match plain.reach accessType (addr.setWidth 64) with
    | .ok _ => none
    | .error status => some status
  bytes addr := (plain.seen (addr.setWidth 64)).bind plain.physMemory.bytes

/-- The user has an address space of its own: its tables are out of reach, and no byte is shared. -/
structure Space (w : Nat) (plain : Plain) : Prop where
  width : addressBits plain.hart.csrFile.satp64.mode = w
  /-- No leaf entry lacks the accessed or the dirty bit. -/
  marked : ∀ accessType va, ∃ result, plain.translateVa accessType va = .ok result
  /-- No byte of a table entry can be written. -/
  guarded : ∀ va pa, plain.translateVa .write va = .ok ⟨.ok, pa⟩ → ∀ other,
    ∀ pte ∈ tableEntries plain.physMemory plain.hart.csrFile.satp64 other,
      ¬ByteStore.InRun pte pteBytes pa
  /-- No byte is reached by two addresses that differ in the bits that matter. -/
  unshared : ∀ accessType other va vaOther pa,
    plain.translateVa accessType va = .ok ⟨.ok, pa⟩ →
    plain.translateVa other vaOther = .ok ⟨.ok, pa⟩ → va.setWidth w = vaOther.setWidth w

/-- Translation goes page by page. -/
theorem pagewise_translateVa (plain : Plain) (accessType : AccessType) :
    Pagewise (plain.translateVa accessType) := fun va =>
  translate_page _ _ _ accessType va

/-- An address that is translated is moved inside its page with its translation. -/
theorem translateVa_add {accessType : AccessType} {va pa : VirtAddr}
    (found : plain.translateVa accessType va = .ok ⟨.ok, pa⟩) {i : Nat}
    (inside : va.toNat % 4096 + i < 4096) :
    plain.translateVa accessType (va + BitVec.ofNat 64 i) = .ok ⟨.ok, pa + BitVec.ofNat 64 i⟩ := by
  have pagewise := plain.pagewise_translateVa accessType
  obtain ⟨page, offset⟩ := pagewise.page_of found
  have moved := toNat_add_in_page va inside
  have samePage : pageBase (va + BitVec.ofNat 64 i) = pageBase va := by
    rw [pageBase_eq_iff, moved]
    omega
  rw [← samePage] at page
  rw [(pagewise.of_page page).1]
  -- The offsets of both addresses have moved by the same number.
  have offsets : pa.toNat % 4096 = va.toNat % 4096 := by
    rw [← toNat_pageOffset, ← toNat_pageOffset, offset]
  have place := toNat_add_in_page pa (i := i) (by omega)
  have bound := (pa + BitVec.ofNat 64 i).isLt
  congr 2
  apply BitVec.eq_of_toNat_eq
  rw [BitVec.toNat_add, toNat_pageBase, toNat_pageOffset, moved, place]
  omega

/-- A byte is reached exactly behind a translation to a page of RAM. -/
theorem reach_ok_iff {accessType : AccessType} {va pa : VirtAddr} :
    plain.reach accessType va = .ok pa ↔
      plain.translateVa accessType va = .ok ⟨.ok, pa⟩ ∧ plain.physMemory.HasPage pa := by
  unfold reach
  cases plain.translateVa accessType va with
  | error why => simp
  | ok result =>
    obtain ⟨status, place⟩ := result
    by_cases ok : status = .ok
    · subst ok
      by_cases here : plain.physMemory.HasPage place
      · simp only [ne_eq, not_true, if_false, if_pos here, Except.ok.injEq, TranslateResult.mk.injEq,
          true_and]
        exact ⟨fun same => ⟨same, same ▸ here⟩, And.left⟩
      · simp only [ne_eq, not_true, if_false, if_neg here, Except.ok.injEq,
          TranslateResult.mk.injEq, true_and]
        exact iff_of_false nofun fun found => here (found.1 ▸ found.2)
    · simp only [ne_eq, ok, not_false_eq_true, if_true, Except.ok.injEq, TranslateResult.mk.injEq,
        false_and]
      exact iff_of_false nofun id

/-- What is reached in one way is what is seen. -/
theorem seen_of_reach {accessType : AccessType} {va pa : VirtAddr}
    (reached : plain.reach accessType va = .ok pa) : plain.seen va = some pa := by
  have same {other : AccessType} {place : VirtAddr} (found : plain.reach other va = .ok place) :
      place = pa := translate_place (reach_ok_iff.mp found).1 (reach_ok_iff.mp reached).1
  unfold seen
  -- Whichever access is looked at first goes to the same place.
  cases read : plain.reach .read va with
  | ok place => exact congrArg some (same read)
  | error status =>
    cases write : plain.reach .write va with
    | ok place => exact congrArg some (same write)
    | error status =>
      cases fetch : plain.reach .fetch va with
      | ok place => exact congrArg some (same fetch)
      | error status =>
        cases accessType with
        | read =>
          rw [read] at reached
          cases reached
        | write =>
          rw [write] at reached
          cases reached
        | fetch =>
          rw [fetch] at reached
          cases reached

/-- What is seen is reached in some way. -/
theorem reach_of_seen {va pa : VirtAddr} (seen : plain.seen va = some pa) :
    ∃ accessType, plain.reach accessType va = .ok pa := by
  unfold Plain.seen at seen
  split at seen
  · rename_i found
    cases seen
    exact ⟨_, found⟩
  · rename_i found _
    cases seen
    exact ⟨_, found⟩
  · rename_i found _ _
    cases seen
    exact ⟨_, found⟩
  · cases seen

namespace Space

variable (space : plain.Space w)

include space

/-- The width of the address space is that of some mode. -/
theorem bounds : 12 ≤ w ∧ w ≤ 64 := by
  rw [← space.width]
  exact addressBits_bounds _

/-- Only the bits that the mode looks at matter. -/
theorem translateVa_low (accessType : AccessType) (va : VirtAddr) :
    plain.translateVa accessType ((va.setWidth w).setWidth 64) = plain.translateVa accessType va := by
  have bounds := space.bounds
  have low : ((va.setWidth w).setWidth 64).toNat = va.toNat % 2 ^ w := by
    rw [BitVec.toNat_setWidth, BitVec.toNat_setWidth]
    exact Nat.mod_eq_of_lt (Nat.lt_of_lt_of_le (Nat.mod_lt _ (Nat.two_pow_pos w))
      (Nat.pow_le_pow_right (by decide) bounds.2))
  have width := space.width
  unfold addressBits at width
  cases translating : modeToLevels plain.hart.csrFile.satp64.mode with
  | error why =>
    -- Without tables the address is as wide as the register.
    rw [translating] at width
    have whole : (va.setWidth w).setWidth 64 = va := by
      apply BitVec.eq_of_toNat_eq
      rw [low, ← width, Nat.mod_eq_of_lt va.isLt]
    rw [whole]
  | ok levels =>
    rw [translating] at width
    refine translate_of_sameLow translating ?_ _ _ _
    rw [SvPaging.SameLow, low, ← width, Nat.mod_mod]

/-- Where an access ends depends on the low bits of its address alone. -/
theorem reach_low (accessType : AccessType) (va : VirtAddr) :
    plain.reach accessType ((va.setWidth w).setWidth 64) = plain.reach accessType va := by
  rw [reach, reach, space.translateVa_low]

/-- The byte that is reached is the one of the address space. -/
theorem flat_bytes {accessType : AccessType} {va pa : VirtAddr}
    (reached : plain.reach accessType va = .ok pa) :
    (plain.flat w).bytes (va.setWidth w) = plain.physMemory.bytes pa := by
  rw [← space.reach_low] at reached
  simp only [flat, seen_of_reach reached, Option.bind_some]

/-- An access is denied where it does not reach a byte. -/
theorem flat_denial (accessType : AccessType) (va : VirtAddr) :
    (plain.flat w).denial accessType (va.setWidth w) =
      match plain.reach accessType va with
      | .ok _ => none
      | .error status => some status := by
  simp only [flat, space.reach_low]

/-- The addresses of a run in a page are reached one after the other. -/
theorem reach_add {accessType : AccessType} {va pa : VirtAddr}
    (reached : plain.reach accessType va = .ok pa) {i : Nat}
    (inside : va.toNat % 4096 + i < 4096) :
    plain.reach accessType (va + BitVec.ofNat 64 i) = .ok (pa + BitVec.ofNat 64 i) ∧
      (va + BitVec.ofNat 64 i).setWidth w = va.setWidth w + BitVec.ofNat w i := by
  obtain ⟨found, here⟩ := reach_ok_iff.mp reached
  have offset := ((plain.pagewise_translateVa accessType).page_of found).2
  have offsets : pa.toNat % 4096 = va.toNat % 4096 := by
    rw [← toNat_pageOffset, ← toNat_pageOffset, offset]
  refine ⟨reach_ok_iff.mpr ⟨translateVa_add found inside, ?_⟩, ?_⟩
  · -- The run stays in the page of RAM.
    have whole : Fits pa (i + 1) := by
      unfold Fits
      omega
    have same := (PhysMemory.address_in_page whole (Nat.lt_succ_self i)).1
    rwa [PhysMemory.HasPage, same]
  · rw [BitVec.setWidth_add _ _ space.bounds.2, BitVec.setWidth_ofNat_of_le space.bounds.2]

/-- A word of the address space is the word of RAM behind it. -/
theorem flat_get {n : Nat} {accessType : AccessType} {va pa : VirtAddr}
    (reached : plain.reach accessType va = .ok pa) (fits : Fits va n) :
    (plain.flat w).bytes.get n (va.setWidth w) = plain.physMemory.bytes.get n pa := by
  -- Both words consist of the same bytes.
  apply LittleEndian.fromBytes_congr
  intro i inside
  unfold Fits at fits
  obtain ⟨moved, address⟩ := space.reach_add reached (i := i) (by omega)
  rw [← address, space.flat_bytes moved]

/-- A load through the tables is a load from the address space. -/
theorem loadInt {n : Nat} (size : AccessSize n) (accessType : AccessType) (va : VirtAddr) :
    plain.loadInt n accessType va = .ok ((plain.flat w).load n accessType va) := by
  unfold Plain.loadInt Flat.load
  by_cases aligned : va &&& addrAlignMask n = 0
  · have fits := fits_of_aligned size aligned
    rw [if_neg (not_not.mpr aligned), if_neg (not_not.mpr aligned), space.flat_denial]
    obtain ⟨⟨status, pa⟩, found⟩ := space.marked accessType va
    simp only [Plain.readInt, found]
    by_cases ok : status = .ok
    · subst ok
      have offset := ((plain.pagewise_translateVa accessType).page_of found).2
      have placeFits : Fits pa n := by
        unfold Fits at fits ⊢
        rwa [← toNat_pageOffset, offset, toNat_pageOffset]
      have status := plain.physMemory.read_status pa (0 : BitVec (8 * n))
      rw [if_neg (not_not.mpr rfl)]
      by_cases here : plain.physMemory.HasPage pa
      · -- The word behind the translation is read.
        have reached := reach_ok_iff.mpr ⟨found, here⟩
        rw [PhysMemory.accessStatus_ok_iff.mpr ⟨placeFits, here⟩] at status
        simp only [if_neg (not_not.mpr status), (PhysMemory.read_ok status).1, reached,
          space.flat_get reached fits]
      · -- The translation leads to a page that is not in RAM.
        have missing : plain.reach accessType va = .error .physMemAccessFault := by
          simp only [reach, found, ne_eq, not_true, if_false, if_neg here]
        simp only [PhysMemory.accessStatus, not_not.mpr placeFits, if_false, if_neg here] at status
        have failed : (plain.physMemory.read (n := n) pa 0).status ≠ .ok := by rw [status]; decide
        rw [if_pos failed, missing, status]
    · have missing : plain.reach accessType va = .error status := by
        simp only [reach, found, ne_eq, ok, not_false_eq_true, if_true]
      rw [if_pos ok]
      simp only [missing]
  · rw [if_pos aligned, if_pos aligned]

/-- A write touches no byte of a table entry. -/
theorem tables_write {n : Nat} {va pa : VirtAddr}
    (found : plain.translateVa .write va = .ok ⟨.ok, pa⟩) {value : BitVec (8 * n)}
    (ok : (plain.physMemory.write pa value).1.status = .ok) (other : VirtAddr) :
    ∀ pte ∈ tableEntries plain.physMemory plain.hart.csrFile.satp64 other, ∀ addr,
      ByteStore.InRun pte pteBytes addr →
      (plain.physMemory.write pa value).2.bytes addr = plain.physMemory.bytes addr := by
  intro pte member addr inside
  have fits := (PhysMemory.accessStatus_ok_iff.mp
    ((plain.physMemory.write_status pa value).symm.trans ok)).1
  have offset := ((plain.pagewise_translateVa .write).page_of found).2
  unfold Fits at fits
  rw [← toNat_pageOffset, offset, toNat_pageOffset] at fits
  rw [(PhysMemory.write_ok ok).1, ByteStore.put, if_neg]
  -- Each byte that is written has an address of its own, and is no byte of a table.
  intro written
  obtain ⟨i, bound, rfl⟩ := (ByteStore.inRun_iff (by omega)).mp written
  exact space.guarded _ _ (translateVa_add found (by omega)) _ pte member inside

/-- A write keeps the address space, and puts the word where its address is. -/
theorem write {n : Nat} {va pa : VirtAddr} (reached : plain.reach .write va = .ok pa)
    (fits : Fits va n) {value : BitVec (8 * n)}
    (ok : (plain.physMemory.write pa value).1.status = .ok) :
    let after := { plain with physMemory := (plain.physMemory.write pa value).2 }
    after.Space w ∧ after.flat w =
      { plain.flat w with bytes := (plain.flat w).bytes.put (va.setWidth w) value } := by
  intro after
  obtain ⟨bytes, ram, _⟩ := PhysMemory.write_ok ok
  have limit := space.bounds
  unfold Fits at fits
  have small : n ≤ 2 ^ w := by
    have page : 2 ^ 12 ≤ 2 ^ w := Nat.pow_le_pow_right (by decide) limit.1
    omega
  have run {i : Nat} (inside : i < n) := space.reach_add reached (i := i) (by omega)
  have tables := space.tables_write (reach_ok_iff.mp reached).1 ok
  have translation (accessType : AccessType) (va : VirtAddr) :
      after.translateVa accessType va = plain.translateVa accessType va :=
    translate_congr _ va (tables va) _ _ _
  have page (addr : PhysAddr) : after.physMemory.HasPage addr ↔ plain.physMemory.HasPage addr := by
    change ((plain.physMemory.write pa value).2.ram.mapping _).isSome ↔ _
    rw [ram]
    exact Iff.rfl
  have reach (accessType : AccessType) (va : VirtAddr) :
      after.reach accessType va = plain.reach accessType va := by
    simp only [Plain.reach, translation, page]
  refine ⟨⟨space.width, ?_, ?_, ?_⟩, ?_⟩
  · intro accessType va
    rw [translation]
    exact space.marked accessType va
  · intro va pa found other pte member
    rw [translation] at found
    change pte ∈ tableEntries after.physMemory plain.hart.csrFile.satp64 other at member
    rw [tableEntries_congr _ _ (tables other)] at member
    exact space.guarded va pa found other pte member
  · intro accessType other va vaOther pa found foundOther
    rw [translation] at found foundOther
    exact space.unshared accessType other va vaOther pa found foundOther
  · have seen (va : VirtAddr) : after.seen va = plain.seen va := by simp only [Plain.seen, reach]
    simp only [flat, seen, reach]
    congr 1
    funext addr
    change _ = ByteStore.put (plain.flat w).bytes _ _ addr
    rw [show after.physMemory.bytes = _ from bytes, ByteStore.put]
    change _ = if _ then ((plain.seen (addr.setWidth 64)).bind plain.physMemory.bytes).map _ else
      (plain.seen (addr.setWidth 64)).bind plain.physMemory.bytes
    cases found : plain.seen (addr.setWidth 64) with
    | none => split <;> rfl
    | some place =>
      obtain ⟨accessType, reached'⟩ := reach_of_seen found
      have whole : (addr.setWidth 64).setWidth w = addr := by
        rw [BitVec.setWidth_setWidth_of_le _ limit.2, BitVec.setWidth_eq]
      simp only [Option.bind_some]
      -- A byte is written exactly when its address is one of the word's.
      by_cases written : ByteStore.InRun pa n place
      · obtain ⟨i, bound, rfl⟩ := (ByteStore.inRun_iff (by omega)).mp written
        obtain ⟨moved, address⟩ := run bound
        have same := space.unshared _ _ _ _ _ (reach_ok_iff.mp reached').1
          (reach_ok_iff.mp moved).1
        rw [whole, address] at same
        have inside : ByteStore.InRun (va.setWidth w) n addr :=
          (ByteStore.inRun_iff small).mpr ⟨i, bound, same⟩
        rw [ByteStore.put, if_pos written, if_pos inside, same, ByteStore.distance_add _ (by omega),
          ByteStore.distance_add _ (by omega)]
      · rw [ByteStore.put, if_neg written, if_neg]
        intro inside
        obtain ⟨i, bound, same⟩ := (ByteStore.inRun_iff small).mp inside
        obtain ⟨moved, address⟩ := run bound
        rw [← space.reach_low, address, ← same] at moved
        have place' := (seen_of_reach moved).symm.trans found
        exact written ((ByteStore.inRun_iff (by omega)).mpr ⟨i, bound, (Option.some.inj place').symm⟩)

/-- A store through the tables is a store to the address space, which it keeps. -/
theorem storeInt {n : Nat} (size : AccessSize n) (va : VirtAddr) (value : BitVec (8 * n)) :
    ∃ status after, plain.storeInt n va value = .ok (status, after) ∧ after.Space w ∧
      (plain.flat w).store n va value = (status, after.flat w) := by
  unfold Plain.storeInt Flat.store
  by_cases aligned : va &&& addrAlignMask n = 0
  · have fits := fits_of_aligned size aligned
    rw [if_neg (not_not.mpr aligned), if_neg (not_not.mpr aligned), space.flat_denial]
    obtain ⟨⟨status, pa⟩, found⟩ := space.marked .write va
    simp only [found]
    by_cases ok : status = .ok
    · subst ok
      have offset := ((plain.pagewise_translateVa .write).page_of found).2
      have placeFits : Fits pa n := by
        unfold Fits at fits ⊢
        rwa [← toNat_pageOffset, offset, toNat_pageOffset]
      have status := plain.physMemory.write_status pa value
      rw [if_neg (not_not.mpr rfl)]
      by_cases here : plain.physMemory.HasPage pa
      · -- The word is written behind the translation.
        have reached := reach_ok_iff.mpr ⟨found, here⟩
        rw [PhysMemory.accessStatus_ok_iff.mpr ⟨placeFits, here⟩] at status
        obtain ⟨kept, written⟩ := space.write reached fits status
        simp only [if_neg (not_not.mpr status), reached]
        exact ⟨_, _, rfl, kept, by rw [written]⟩
      · have missing : plain.reach .write va = .error .physMemAccessFault := by
          simp only [reach, found, ne_eq, not_true, if_false, if_neg here]
        simp only [PhysMemory.accessStatus, not_not.mpr placeFits, if_false, if_neg here] at status
        simp only [missing, status]
        exact ⟨_, _, rfl, space, rfl⟩
    · have missing : plain.reach .write va = .error status := by
        simp only [reach, found, ne_eq, ok, not_false_eq_true, if_true]
      rw [if_pos ok]
      simp only [missing]
      exact ⟨_, _, rfl, space, rfl⟩
  · rw [if_pos aligned, if_pos aligned]
    exact ⟨_, _, rfl, space, rfl⟩

/-- The word at an address is that of the address space. -/
theorem fetchAt (va : VirtAddr) : plain.fetchAt va = (plain.flat w).fetchAt va := by
  rw [Plain.fetchAt, space.loadInt (.inr (.inr (.inl rfl))) .fetch va]
  rfl

end Space

/-- An interpreter with an address space of its own, and one that is given it. -/
def Flattens (w : Nat) (plain : Plain) (flat : Flat w) : Prop := plain.Space w ∧ plain.flat w = flat

/-- Both have the same core, of which only the control registers matter to the address space. -/
theorem sameCore_flattens : SameCore (Flattens w) where
  core := by
    rintro plain _ ⟨_, rfl⟩
    rfl
  setCore := by
    rintro plain _ ⟨space, rfl⟩ replaced csrFile
    change replaced.hart.csrFile = plain.hart.csrFile at csrFile
    have translation (accessType : AccessType) (va : VirtAddr) :
        ({ plain with toCore := replaced } : Plain).translateVa accessType va =
          plain.translateVa accessType va := by
      simp only [translateVa, csrFile]
    constructor
    · refine ⟨?_, ?_, ?_, ?_⟩
      · change addressBits replaced.hart.csrFile.satp64.mode = w
        rw [csrFile]
        exact space.width
      · intro accessType va
        exact (translation accessType va).symm ▸ space.marked accessType va
      · intro va pa found other pte member
        change pte ∈ tableEntries _ replaced.hart.csrFile.satp64 other at member
        rw [csrFile] at member
        exact space.guarded va pa ((translation _ _).symm.trans found) other pte member
      · intro accessType other va vaOther pa found foundOther
        exact space.unshared accessType other va vaOther pa ((translation _ _).symm.trans found)
          ((translation _ _).symm.trans foundOther)
    · have reach (accessType : AccessType) (va : VirtAddr) :
          ({ plain with toCore := replaced } : Plain).reach accessType va =
            plain.reach accessType va := by
        rw [Plain.reach, Plain.reach, translation]
      change Plain.flat w { plain with toCore := replaced } =
        { plain.flat w with toCore := replaced }
      simp only [flat, seen, reach]

/-- A call does with the tables what it does with the address space. -/
theorem Space.call (space : plain.Space w) (instr : Instr) :
    Lifted (Flattens w) (fun _ => False) (RiscvSim.call plain instr)
      (RiscvSim.call (plain.flat w) instr) := by
  unfold RiscvSim.call
  cases dispatched : dispatch instr.id with
  | none => exact .error _
  | some handler =>
    have sized := dispatch_sized dispatched
    refine Handler.exec_lifted sameCore_flattens handler instr ⟨space, rfl⟩ ?_ ?_
    · rintro n widen va rfl _
      -- Loads change neither side.
      change Lifted _ _ ((plain.loadInt n .read va).map _) (.ok ((plain.flat w).load n .read va, _))
      rw [space.loadInt sized]
      exact .ok ⟨space, rfl⟩
    · rintro n va value rfl _
      obtain ⟨status, after, stored, kept, same⟩ := space.storeInt sized va value
      change Lifted _ _ (plain.storeInt n va value) (.ok ((plain.flat w).store n va value))
      rw [stored, same]
      exact .ok ⟨kept, rfl⟩

end Plain

/-- The result of a simulation, with the address space that the user sees. -/
def SimResult.flat (w : Nat) : SimResult Plain → SimResult (Flat w)
  | .error why => .error why
  | .ok (status, plain) => .ok (status, plain.flat w)

/-- A step with the tables is a step with the address space. -/
theorem Plain.Space.step {w : Nat} {plain : Plain} (space : plain.Space w) :
    (Plain.step plain).Both (Plain.Flattens w) (fun left right => left.flat w = right)
      (Flat.step (plain.flat w)) := by
  unfold Plain.step Plain.stepWith Flat.step
  rw [space.fetchAt, show (plain.flat w).pc = plain.pc from rfl]
  generalize (plain.flat w).fetchAt plain.pc = fetched
  cases fetched with
  | error why => exact rfl
  | ok res =>
    by_cases ok : res.status = .ok
    · simp only [if_neg (not_not.mpr ok)]
      have lifted := space.call (Instr.decode res.instrCode)
      generalize RiscvSim.call plain (Instr.decode res.instrCode) = left at lifted ⊢
      generalize RiscvSim.call (plain.flat w) (Instr.decode res.instrCode) = right at lifted ⊢
      cases lifted with
      | error why => exact rfl
      | excused _ never => exact never.elim
      | @ok flow after flatAfter kept =>
        obtain ⟨kept, rfl⟩ := kept
        cases flow with
        | next => exact ⟨kept, rfl⟩
        | ret status =>
          -- The loop does the same with the status on both sides.
          simp only [Config.ofStatus]
          split
          · exact rfl
          · split
            · exact rfl
            · exact ⟨kept, rfl⟩
    · simp only [if_pos ok]
      exact rfl

end RiscvSim

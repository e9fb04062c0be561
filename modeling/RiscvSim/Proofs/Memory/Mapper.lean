import RiscvSim.Proofs.Memory.Pte
import RiscvSim.Proofs.Memory.PhysMemory
import RiscvSim.Lib.RadixTables

/-! The translation tables as a radix forest: what the walk finds in it and how mapping grows it. -/

namespace RiscvSim

open RadixTables

/-- The entry of a table in a flat store. -/
def entry (bytes : ByteStore 64) (t d : Nat) : PTE :=
  bytes.get pteBytes (BitVec.ofNat 64 (t * 4096 + d * 8))

/-- The entry that links a table. -/
def linkTo (t : Nat) : PTE := createPTE (BitVec.ofNat 64 t) ⟨PTEFlags.vMask⟩

/-- The entry of a mapping. -/
def leafPTE (mapping : MemoryMapping) : PTE := createPTE mapping.ppn mapping.flags

/-- The part of a page number that selects entries. -/
def vpnKey (levels : Nat) (va : VirtAddr) : Nat := va.toNat / 4096 % 512 ^ levels

/-- The page of an address belongs to the table region. -/
def SimpleMemoryMapper.InRegion (mapper : SimpleMemoryMapper) (addr : PhysAddr) : Prop :=
  mapper.tableRegionBegin.toNat ≤ addr.toNat / 4096 ∧
    addr.toNat / 4096 < mapper.tableRegionEnd.toNat

/-- The tables in memory spell the mapping of each page number. -/
structure Represents (levels : Nat) (mapper : SimpleMemoryMapper) (tables : Tables)
    (mapped : Nat → Option MemoryMapping) (memory : PhysMemory) : Prop where
  holds : Holds 512 levels mapper.tableRegionBegin.toNat mapper.currTable.toNat
    mapper.tableRegionEnd.toNat tables (fun key => (mapped key).map leafPTE) linkTo 0
    (entry memory.bytes)
  small : mapper.tableRegionEnd.toNat ≤ 2 ^ 44
  shallow : levels ≤ 5
  pages : ∀ t, mapper.tableRegionBegin.toNat ≤ t → t < mapper.tableRegionEnd.toNat →
    memory.HasPage (BitVec.ofNat 64 (t * 4096))

/-- A field of the virtual address is the digit of its key. -/
theorem toNat_getVPN {levels i : Nat} (va : VirtAddr) (inside : i < levels)
    (shallow : levels ≤ 5) : (getVPN va i).toNat = digit 512 (vpnKey levels va) i := by
  -- The key is cut above the field, so the field survives the cut.
  have radix : ∀ k, (512 : Nat) ^ k = 2 ^ (9 * k) := fun k => (Nat.pow_mul 2 9 k).symm
  have above : (512 : Nat) ∣ 2 ^ (9 * levels - 9 * i) :=
    Nat.pow_dvd_pow_iff_le_right' (b := 0) |>.mpr (by omega : 9 ≤ 9 * levels - 9 * i)
  have low : pageBitSize + i * vpnBitStep = 12 + 9 * i := by
    simp only [pageBitSize, vpnBitStep]
    omega
  rw [getVPN, low, show vpnBitStep = 9 from rfl,
    toNat_getBitField _ (by decide) (by omega) (by omega), digit, vpnKey, radix, radix,
    Bits.mod_pow_div_pow _ (by omega), Nat.mod_mod_of_dvd _ above, Nat.pow_add,
    Nat.div_div_eq_div_mul, show (2 : Nat) ^ 12 = 4096 from rfl,
    show 12 + 9 * i + 9 - 1 - (12 + 9 * i) + 1 = 9 by omega, show (2 : Nat) ^ 9 = 512 from rfl]

/-- The address of an entry is its table's page and its position in the table. -/
theorem pteAddr_eq {levels i t : Nat} (va : VirtAddr) (inside : i < levels)
    (shallow : levels ≤ 5) :
    pteAddr (BitVec.ofNat 64 t) va i =
      BitVec.ofNat 64 (t * 4096 + digit 512 (vpnKey levels va) i * 8) := by
  have field := toNat_getVPN va inside shallow
  have bound := digit_lt (vpnKey levels va) i (show 0 < 512 by decide)
  apply BitVec.eq_of_toNat_eq
  -- A table below 2^44 has its entries at addresses that do not wrap.
  simp only [pteAddr, pageSize, pageBitSize, pteBytes, BitVec.toNat_add, BitVec.toNat_mul,
    BitVec.toNat_ofNat, field]
  omega

/-- The value of an entry's address. -/
theorem toNat_entryAddr {t d : Nat} (small : t < 2 ^ 44) (inside : d < 512) :
    (BitVec.ofNat 64 (t * 4096 + d * 8)).toNat = t * 4096 + d * 8 := by
  rw [BitVec.toNat_ofNat]
  omega

/-- An entry fits in the page of its table. -/
theorem fits_entry {t d : Nat} (small : t < 2 ^ 44) (inside : d < 512) :
    PhysMemory.Fits (BitVec.ofNat 64 (t * 4096 + d * 8)) pteBytes := by
  rw [PhysMemory.Fits, toNat_entryAddr small inside, pteBytes]
  omega

/-- Putting a word at an entry's address sets that entry and no other. -/
theorem entry_put {bytes : ByteStore 64} {t d u e : Nat} (word : PTE) (small : t < 2 ^ 44)
    (inside : d < 512) (otherSmall : u < 2 ^ 44) (otherInside : e < 512)
    (present : bytes.Present (BitVec.ofNat 64 (t * 4096 + d * 8)) pteBytes) :
    entry (bytes.put (n := pteBytes) (BitVec.ofNat 64 (t * 4096 + d * 8)) word) u e =
      setEntry (entry bytes) t d word u e := by
  by_cases same : u = t ∧ e = d
  · obtain ⟨rfl, rfl⟩ := same
    rw [setEntry_self]
    exact ByteStore.get_put_same (n := pteBytes) bytes word (by decide) present
  · rw [setEntry_of_ne _ _ same]
    -- Entries are eight bytes apart, so distinct ones share no byte.
    refine ByteStore.get_put_disjoint (n := pteBytes) (m := pteBytes) bytes word (by decide)
      fun addr here there => same ?_
    -- A shared byte would put both positions at the same table and the same entry.
    have lower := (toNat_sub_lt_iff addr _ (fits_entry otherSmall otherInside)).mp here
    have upper := (toNat_sub_lt_iff addr _ (fits_entry small inside)).mp there
    rw [toNat_entryAddr otherSmall otherInside, pteBytes] at lower
    rw [toNat_entryAddr small inside, pteBytes] at upper
    omega

namespace Represents

variable {levels : Nat} {mapper : SimpleMemoryMapper} {tables : Tables}
  {mapped : Nat → Option MemoryMapping} {memory : PhysMemory} {i t : Nat}

/-- A table that serves a prefix lies in the region. -/
theorem table_bounds (represents : Represents levels mapper tables mapped memory) {p : Nat}
    (found : tables i p = some t) : mapper.tableRegionBegin.toNat ≤ t ∧
      t < mapper.tableRegionEnd.toNat ∧ t < 2 ^ 44 ∧ i < levels := by
  have bounds := represents.holds.shape.bounds _ _ _ found
  have room := represents.holds.room
  have small := represents.small
  exact ⟨bounds.1, by omega, by omega, (represents.holds.shape.above _ _ _ found).1⟩

/-- The page of an entry of the region was added. -/
theorem hasPage_entry (represents : Represents levels mapper tables mapped memory) {d : Nat}
    (lower : mapper.tableRegionBegin.toNat ≤ t) (upper : t < mapper.tableRegionEnd.toNat)
    (inside : d < 512) : memory.HasPage (BitVec.ofNat 64 (t * 4096 + d * 8)) := by
  have small := represents.small
  have page := represents.pages t lower upper
  -- An entry does not cross the end of its table's page, so it shares the page's base.
  have same : pageBase (BitVec.ofNat 64 (t * 4096 + d * 8)) =
      pageBase (BitVec.ofNat 64 (t * 4096)) := by
    rw [pageBase_eq_iff, toNat_entryAddr (by omega) inside, BitVec.toNat_ofNat]
    omega
  rwa [PhysMemory.HasPage, same]

/-- Reading the entry that a virtual address selects succeeds. -/
theorem read_entry (represents : Represents levels mapper tables mapped memory) (va : VirtAddr)
    (found : tables i (keyPrefix 512 (vpnKey levels va) i) = some t) :
    (memory.read (n := pteBytes) (pteAddr (BitVec.ofNat 64 t) va i) 0).status = .ok ∧
      (memory.read (n := pteBytes) (pteAddr (BitVec.ofNat 64 t) va i) 0).dst =
        entry memory.bytes t (digit 512 (vpnKey levels va) i) := by
  obtain ⟨lower, upper, small, inside⟩ := represents.table_bounds found
  have bound := digit_lt (vpnKey levels va) i (show 0 < 512 by decide)
  rw [pteAddr_eq va inside represents.shallow]
  have ok : (memory.read (n := pteBytes)
      (BitVec.ofNat 64 (t * 4096 + digit 512 (vpnKey levels va) i * 8)) 0).status = .ok := by
    -- The access fits in one page, and the region's pages are all in memory.
    rw [PhysMemory.read_status, PhysMemory.accessStatus_ok_iff]
    exact ⟨fits_entry small bound, represents.hasPage_entry lower upper bound⟩
  exact ⟨ok, (PhysMemory.read_ok ok).1⟩

/-- Writing the entry that a virtual address selects sets it and nothing else. -/
theorem write_entry (represents : Represents levels mapper tables mapped memory) (va : VirtAddr)
    (found : tables i (keyPrefix 512 (vpnKey levels va) i) = some t) (pte : PTE) :
    (memory.write (n := pteBytes) (pteAddr (BitVec.ofNat 64 t) va i) pte).1.status = .ok ∧
      (∀ u d, mapper.tableRegionBegin.toNat ≤ u → u < mapper.tableRegionEnd.toNat → d < 512 →
        entry (memory.write (n := pteBytes) (pteAddr (BitVec.ofNat 64 t) va i) pte).2.bytes u d =
          setEntry (entry memory.bytes) t (digit 512 (vpnKey levels va) i) pte u d) ∧
      ∀ addr, ¬mapper.InRegion addr →
        (memory.write (n := pteBytes) (pteAddr (BitVec.ofNat 64 t) va i) pte).2.bytes addr =
          memory.bytes addr := by
  obtain ⟨lower, upper, small, inside⟩ := represents.table_bounds found
  have bound := digit_lt (vpnKey levels va) i (show 0 < 512 by decide)
  have fits := fits_entry small bound
  have page := represents.hasPage_entry lower upper bound
  rw [pteAddr_eq va inside represents.shallow]
  have ok : (memory.write (n := pteBytes)
      (BitVec.ofNat 64 (t * 4096 + digit 512 (vpnKey levels va) i * 8)) pte).1.status = .ok := by
    rw [PhysMemory.write_status, PhysMemory.accessStatus_ok_iff]
    exact ⟨fits, page⟩
  obtain ⟨bytes, _⟩ := PhysMemory.write_ok ok
  refine ⟨ok, ?_, ?_⟩
  · intro u d least most within
    have limit := represents.small
    rw [bytes]
    apply entry_put pte small bound (by omega) within
    -- Every byte of the entry lies in a page that was added.
    intro k position
    rw [PhysMemory.isSome_bytes, PhysMemory.HasPage,
      (PhysMemory.address_in_page fits position).1]
    exact page
  · intro addr outside
    rw [bytes]
    refine if_neg fun within => outside ?_
    -- The bytes of the entry lie in the page of its table.
    have range := (toNat_sub_lt_iff addr _ fits).mp within
    rw [toNat_entryAddr small bound, pteBytes] at range
    exact ⟨by omega, by omega⟩

/-- A byte store that agrees on the region holds the same tables. -/
theorem congr_bytes (represents : Represents levels mapper tables mapped memory)
    {other : PhysMemory}
    (same : ∀ addr, mapper.InRegion addr → other.bytes addr = memory.bytes addr) :
    Represents levels mapper tables mapped other where
  holds := represents.holds.congr fun t d lower upper inside => by
    have limit := represents.small
    -- An entry reads only bytes of its own table, and these lie in the region.
    refine ByteStore.get_congr (n := pteBytes) (by decide) fun addr within => same addr ?_
    have range := (toNat_sub_lt_iff addr _ (fits_entry (by omega) inside)).mp within
    rw [toNat_entryAddr (by omega) inside, pteBytes] at range
    exact ⟨by omega, by omega⟩
  small := represents.small
  shallow := represents.shallow
  pages t lower upper := by
    have limit := represents.small
    have page := represents.pages t lower upper
    -- A page is present exactly when its first byte is.
    rw [← PhysMemory.isSome_bytes] at page ⊢
    rwa [same]
    rw [SimpleMemoryMapper.InRegion, BitVec.toNat_ofNat]
    omega

end Represents

/-- What a walk of the tables ends with for a page number. -/
def leafWalk : Option MemoryMapping → WalkResult
  | none => .fault .mmu64PageFault
  | some mapping =>
    if pteMalformed (leafPTE mapping) then .fault .mmu64PageFault
    else if pteIsLeaf (leafPTE mapping) then .leaf 0 (leafPTE mapping)
    else .fault .mmu64PageFault

/-- A link reads back as the number of the table it links. -/
theorem linkTo_reads {t : Nat} (small : t < 2 ^ 44) :
    (PTEFlags.ofPTE (linkTo t)).v = true ∧ pteMalformed (linkTo t) = false ∧
      pteIsLeaf (linkTo t) = false ∧ ptePpn (linkTo t) = BitVec.ofNat 64 t := by
  refine ⟨by simp [linkTo], by simp [linkTo], by simp [linkTo], ?_⟩
  exact ptePpn_createPTE _ (by rw [BitVec.toNat_ofNat]; omega)

namespace Represents

variable {levels : Nat} {mapper : SimpleMemoryMapper} {tables : Tables}
  {mapped : Nat → Option MemoryMapping} {memory : PhysMemory}

/-- A walk from any table of a key finds the mapping of the key. -/
theorem walk_eq (represents : Represents levels mapper tables mapped memory) (va : VirtAddr)
    {i t : Nat} (found : tables i (keyPrefix 512 (vpnKey levels va) i) = some t) :
    walk memory va i (BitVec.ofNat 64 t) = leafWalk (mapped (vpnKey levels va)) := by
  obtain ⟨ok, dst⟩ := represents.read_entry va found
  -- By induction on the level, each entry on the way links the next table of the key.
  induction i generalizing t with
  | zero =>
    have value := represents.holds.entry_value (by decide) found
    rw [walk, ok, dst, value]
    cases mapped (vpnKey levels va) with
    | none => simp [leafWalk]
    | some mapping => simp only [leafWalk, ne_eq, not_true, if_false, Option.map_some,
        Option.getD_some]
  | succ i ih =>
    have link := represents.holds.entry_link (by decide) found
    have inside := (represents.table_bounds found).2.2.2
    rw [walk, ok, dst, link]
    cases child : tables i (keyPrefix 512 (vpnKey levels va) i) with
    | none =>
      have missing := represents.holds.value_none (by omega) child
      simp only [Option.map_eq_none_iff] at missing
      simp [missing, leafWalk]
    | some u =>
      obtain ⟨_, wellFormed, inner, ppn⟩ := linkTo_reads (represents.table_bounds child).2.2.1
      obtain ⟨childOk, childDst⟩ := represents.read_entry va child
      simpa [wellFormed, inner, ppn] using ih child childOk childDst

/-- While the region is not full, the next free table lies in it. -/
theorem next_lt (represents : Represents levels mapper tables mapped memory)
    (room : mapper.currTable ≠ mapper.tableRegionEnd) :
    mapper.currTable.toNat < mapper.tableRegionEnd.toNat :=
  Nat.lt_of_le_of_ne represents.holds.room fun same => room (BitVec.eq_of_toNat_eq same)

/-- While the region is not full, the number of the next free table does not wrap. -/
theorem next_toNat (represents : Represents levels mapper tables mapped memory)
    (room : mapper.currTable ≠ mapper.tableRegionEnd) :
    (mapper.currTable + 1).toNat = mapper.currTable.toNat + 1 := by
  have limit := represents.small
  have below := represents.next_lt room
  rw [BitVec.toNat_add]
  -- The region ends below 2^44.
  exact Nat.mod_eq_of_lt (by simp; omega)

/-- A new table for a key is linked from the table above it. -/
theorem addTable (represents : Represents levels mapper tables mapped memory) {va : VirtAddr}
    {i t : Nat} (found : tables (i + 1) (keyPrefix 512 (vpnKey levels va) (i + 1)) = some t)
    (missing : tables i (keyPrefix 512 (vpnKey levels va) i) = none)
    (room : mapper.currTable ≠ mapper.tableRegionEnd) :
    Represents levels { mapper with currTable := mapper.currTable + 1 }
      (add tables i (keyPrefix 512 (vpnKey levels va) i) mapper.currTable.toNat) mapped
      (memory.write (n := pteBytes) (pteAddr (BitVec.ofNat 64 t) va (i + 1))
        (linkTo mapper.currTable.toNat)).2 := by
  obtain ⟨_, inside, _⟩ := represents.write_entry va found (linkTo mapper.currTable.toNat)
  have below := represents.next_lt room
  have next := represents.next_toNat room
  refine ⟨?_, represents.small, represents.shallow, fun u lower upper => ?_⟩
  · rw [next]
    -- The shape grows by the new table, and the write changes no other entry.
    exact (represents.holds.addTable below found missing).congr inside
  · rw [PhysMemory.HasPage, PhysMemory.write_ram]
    exact represents.pages u lower upper

/-- A new leaf entry gives the key of the address its mapping. -/
theorem addLeaf (represents : Represents levels mapper tables mapped memory) {va : VirtAddr}
    {t : Nat} (mapping : MemoryMapping)
    (found : tables 0 (keyPrefix 512 (vpnKey levels va) 0) = some t) :
    Represents levels mapper tables
      (Function.update mapped (vpnKey levels va) (some mapping))
      (memory.write (n := pteBytes) (pteAddr (BitVec.ofNat 64 t) va 0) (leafPTE mapping)).2 := by
  obtain ⟨_, inside, _⟩ := represents.write_entry va found (leafPTE mapping)
  refine ⟨?_, represents.small, represents.shallow, fun u lower upper => ?_⟩
  · -- Updating the mapping and then encoding it is updating the encoded one.
    have values : (fun key => (Function.update mapped (vpnKey levels va) (some mapping) key).map
        leafPTE) = Function.update (fun key => (mapped key).map leafPTE) (vpnKey levels va)
          (some (leafPTE mapping)) := by
      funext key
      by_cases same : key = vpnKey levels va
      · rw [same, Function.update_self, Function.update_self, Option.map_some]
      · rw [Function.update_of_ne same, Function.update_of_ne same]
    rw [values]
    exact (represents.holds.addValue (leafPTE mapping) found).congr inside
  · rw [PhysMemory.HasPage, PhysMemory.write_ram]
    exact represents.pages u lower upper

/-- A key that is mapped already is left alone. -/
theorem mapFrom_mapped (represents : Represents levels mapper tables mapped memory)
    (mapping : MemoryMapping) {va : VirtAddr} {t : Nat}
    (found : tables 0 (keyPrefix 512 (vpnKey levels va) 0) = some t)
    (present : (mapped (vpnKey levels va)).isSome) :
    SimpleMemoryMapper.mapFrom mapping va 0 (BitVec.ofNat 64 t) mapper memory =
      (.mapperAlreadyMapped, mapper, memory) := by
  obtain ⟨ok, dst⟩ := represents.read_entry va found
  obtain ⟨other, isMapped⟩ := Option.isSome_iff_exists.mp present
  have value := represents.holds.entry_value (by decide) found
  -- The entry of a mapped key is its leaf, whose valid flag sends the builder back.
  rw [SimpleMemoryMapper.mapFrom, ok, dst, value, isMapped]
  -- Every mapping has the valid flag.
  have valid : (PTEFlags.ofPTE (leafPTE other)).v = true := by
    simp [leafPTE, other.default_flags]
  simp only [Option.map_some, Option.getD_some, valid, ne_eq, not_true, if_false, Bool.not_true,
    Bool.false_eq_true]

/-- A key that is not mapped gets its entry in its lowest table. -/
theorem mapFrom_unmapped (represents : Represents levels mapper tables mapped memory)
    (mapping : MemoryMapping) {va : VirtAddr} {t : Nat}
    (found : tables 0 (keyPrefix 512 (vpnKey levels va) 0) = some t)
    (missing : mapped (vpnKey levels va) = none) :
    SimpleMemoryMapper.mapFrom mapping va 0 (BitVec.ofNat 64 t) mapper memory =
      (.ok, mapper, (memory.write (n := pteBytes) (pteAddr (BitVec.ofNat 64 t) va 0)
        (leafPTE mapping)).2) := by
  obtain ⟨ok, dst⟩ := represents.read_entry va found
  have value := represents.holds.entry_value (by decide) found
  have written := (represents.write_entry va found (leafPTE mapping)).1
  rw [leafPTE] at written
  -- The entry is still zero, so the builder writes the leaf there.
  rw [SimpleMemoryMapper.mapFrom, ok, dst, value, missing]
  simp only [Option.map_none, Option.getD_none, BitVec.ofNat_eq_ofNat, ofPTE_zero_v, written,
    ne_eq, not_true, if_false, Bool.not_false, if_true]
  rfl

/-- A link is followed to the table of the longer prefix. -/
theorem mapFrom_linked (represents : Represents levels mapper tables mapped memory)
    (mapping : MemoryMapping) {va : VirtAddr} {i t u : Nat}
    (found : tables (i + 1) (keyPrefix 512 (vpnKey levels va) (i + 1)) = some t)
    (child : tables i (keyPrefix 512 (vpnKey levels va) i) = some u) :
    SimpleMemoryMapper.mapFrom mapping va (i + 1) (BitVec.ofNat 64 t) mapper memory =
      SimpleMemoryMapper.mapFrom mapping va i (BitVec.ofNat 64 u) mapper memory := by
  obtain ⟨ok, dst⟩ := represents.read_entry va found
  have link := represents.holds.entry_link (by decide) found
  obtain ⟨valid, _, _, ppn⟩ := linkTo_reads (represents.table_bounds child).2.2.1
  rw [SimpleMemoryMapper.mapFrom, ok, dst, link, child]
  -- The link is valid, so the builder goes on with the table it names.
  simp [valid, ppn]

/-- Without a free table a missing one is reported. -/
theorem mapFrom_full (represents : Represents levels mapper tables mapped memory)
    (mapping : MemoryMapping) {va : VirtAddr} {i t : Nat}
    (found : tables (i + 1) (keyPrefix 512 (vpnKey levels va) (i + 1)) = some t)
    (missing : tables i (keyPrefix 512 (vpnKey levels va) i) = none)
    (full : mapper.currTable = mapper.tableRegionEnd) :
    SimpleMemoryMapper.mapFrom mapping va (i + 1) (BitVec.ofNat 64 t) mapper memory =
      (.mapperTableRegionEnd, mapper, memory) := by
  obtain ⟨ok, dst⟩ := represents.read_entry va found
  have link := represents.holds.entry_link (by decide) found
  -- The zero entry asks for a table, and the region has none left.
  rw [SimpleMemoryMapper.mapFrom, ok, dst, link, missing]
  simp only [Option.map_none, Option.getD_none, BitVec.ofNat_eq_ofNat, ofPTE_zero_v, ne_eq,
    not_true, if_false, Bool.not_false, if_true, if_pos full]

/-- A missing table takes the next free number, and mapping goes on below it. -/
theorem mapFrom_added (represents : Represents levels mapper tables mapped memory)
    (mapping : MemoryMapping) {va : VirtAddr} {i t : Nat}
    (found : tables (i + 1) (keyPrefix 512 (vpnKey levels va) (i + 1)) = some t)
    (missing : tables i (keyPrefix 512 (vpnKey levels va) i) = none)
    (room : mapper.currTable ≠ mapper.tableRegionEnd) :
    SimpleMemoryMapper.mapFrom mapping va (i + 1) (BitVec.ofNat 64 t) mapper memory =
      SimpleMemoryMapper.mapFrom mapping va i (BitVec.ofNat 64 mapper.currTable.toNat)
        { mapper with currTable := mapper.currTable + 1 }
        (memory.write (n := pteBytes) (pteAddr (BitVec.ofNat 64 t) va (i + 1))
          (linkTo mapper.currTable.toNat)).2 := by
  obtain ⟨ok, dst⟩ := represents.read_entry va found
  have link := represents.holds.entry_link (by decide) found
  have written := (represents.write_entry va found (linkTo mapper.currTable.toNat)).1
  have ppn := (linkTo_reads (Nat.lt_of_lt_of_le (represents.next_lt room)
    represents.small)).2.2.2
  -- The counter of tables is a machine word here and a number in the forest.
  have number : BitVec.ofNat 64 mapper.currTable.toNat = mapper.currTable := by simp
  rw [linkTo, number] at written ppn
  rw [SimpleMemoryMapper.mapFrom, ok, dst, link, missing]
  simp only [Option.map_none, Option.getD_none, BitVec.ofNat_eq_ofNat, ofPTE_zero_v, ne_eq,
    not_true, if_false, Bool.not_false, if_true, if_neg room, written, ppn]
  rw [linkTo, number]

end Represents

/-- What a call of the builder for one page number leaves behind. -/
structure MapStep (levels : Nat) (mapping : MemoryMapping) (key : Nat) (tables : Tables)
    (mapped : Nat → Option MemoryMapping) (mapper : SimpleMemoryMapper) (memory : PhysMemory)
    (result : SimStatus × SimpleMemoryMapper × PhysMemory) : Prop where
  /-- A mapped key is reported, and any other key is mapped unless the region is full. -/
  status : if (mapped key).isSome then result.1 = .mapperAlreadyMapped
    else result.1 = .ok ∨
      result.1 = .mapperTableRegionEnd ∧ result.2.1.currTable = mapper.tableRegionEnd
  /-- Exactly a successful call maps its key, and tables are created along the key, down to the
  lowest one unless they run out. -/
  represents : ∃ after, Along 512 key tables after ∧
    ((after 0 (keyPrefix 512 key 0)).isSome ↔ result.1 ≠ .mapperTableRegionEnd) ∧
    Represents levels result.2.1 after
      (if result.1 = .ok then Function.update mapped key (some mapping) else mapped) result.2.2
  /-- Only the position of the next free table moves. -/
  kept : result.2.1 = { mapper with currTable := result.2.1.currTable }
  /-- At most the tables below one that exists are created. -/
  growth : ∀ j, (tables j (keyPrefix 512 key j)).isSome →
    result.2.1.currTable.toNat ≤ mapper.currTable.toNat + j
  ram : result.2.2.ram = memory.ram
  /-- Bytes outside the region stay. -/
  outside : ∀ addr, ¬mapper.InRegion addr → result.2.2.bytes addr = memory.bytes addr

/-- A call that only returns a status leaves everything as it was. -/
theorem MapStep.unchanged {levels key : Nat} {mapping : MemoryMapping} {tables : Tables}
    {mapped : Nat → Option MemoryMapping} {mapper : SimpleMemoryMapper} {memory : PhysMemory}
    {status : SimStatus} (represents : Represents levels mapper tables mapped memory)
    (failed : status ≠ .ok)
    (lowest : (tables 0 (keyPrefix 512 key 0)).isSome ↔ status ≠ .mapperTableRegionEnd)
    (decided : if (mapped key).isSome then status = .mapperAlreadyMapped
      else status = .ok ∨
        status = .mapperTableRegionEnd ∧ mapper.currTable = mapper.tableRegionEnd) :
    MapStep levels mapping key tables mapped mapper memory (status, mapper, memory) where
  status := decided
  represents := ⟨tables, Along.refl 512 key tables, lowest, by rw [if_neg failed]; exact represents⟩
  kept := rfl
  growth _ _ := Nat.le_add_right _ _
  ram := rfl
  outside _ _ := rfl

/-- Mapping from any table of a key either maps the key or reports why not. -/
theorem mapFrom_step {levels : Nat} (mapping : MemoryMapping) (va : VirtAddr)
    {mapped : Nat → Option MemoryMapping} {i t : Nat} {mapper : SimpleMemoryMapper}
    {tables : Tables} {memory : PhysMemory}
    (represents : Represents levels mapper tables mapped memory)
    (found : tables i (keyPrefix 512 (vpnKey levels va) i) = some t) :
    MapStep levels mapping (vpnKey levels va) tables mapped mapper memory
      (SimpleMemoryMapper.mapFrom mapping va i (BitVec.ofNat 64 t) mapper memory) := by
  -- By induction on the level, the entry links a table, or a table is created for it.
  induction i generalizing t mapper tables memory with
  | zero =>
    cases present : mapped (vpnKey levels va) with
    | some other =>
      rw [represents.mapFrom_mapped mapping found (by rw [present]; rfl)]
      -- The lowest table is there already, so the call can only report the old mapping.
      exact .unchanged represents (by decide) (by simp [found]) (by simp [present])
    | none =>
      obtain ⟨_, _, outside⟩ := represents.write_entry va found (leafPTE mapping)
      -- The lowest table is there, and its empty entry takes the leaf.
      rw [represents.mapFrom_unmapped mapping found present]
      exact
        { status := by simp [present]
          represents := ⟨tables, Along.refl _ _ _, by simp [found],
            represents.addLeaf mapping found⟩
          kept := rfl
          growth := fun _ _ => Nat.le_add_right _ _
          ram := PhysMemory.write_ram _ _ _
          outside := outside }
  | succ i ih =>
    have inside := (represents.table_bounds found).2.2.2
    cases child : tables i (keyPrefix 512 (vpnKey levels va) i) with
    | some u =>
      -- Nothing is created on this level, so the levels below decide the call.
      rw [represents.mapFrom_linked mapping found child]
      exact ih represents child
    | none =>
      have missing := represents.holds.value_none (by omega) child
      simp only [Option.map_eq_none_iff] at missing
      by_cases full : mapper.currTable = mapper.tableRegionEnd
      · -- Without a table on this level there is none below it either.
        rw [represents.mapFrom_full mapping found child full]
        have lowest := represents.holds.shape.lowest_none (by omega) child
        exact .unchanged represents (by decide) (by simp [lowest]) (by simp [missing, full])
      · obtain ⟨_, _, outside⟩ :=
          represents.write_entry va found (linkTo mapper.currTable.toNat)
        have grown := represents.addTable found child full
        have next := represents.next_toNat full
        have rest := ih grown (add_self _ _ _ _)
        -- One table is created here, and at most one for each level below.
        have climbed := rest.growth i (by simp)
        rw [represents.mapFrom_added mapping found child full]
        obtain ⟨after, along, represented⟩ := rest.represents
        refine
          { status := rest.status
            represents := ⟨after, along.add, represented⟩
            kept := rest.kept
            growth := fun j present => ?_
            ram := rest.ram.trans (PhysMemory.write_ram _ _ _)
            outside := fun addr other => (rest.outside addr other).trans (outside addr other) }
        -- A table that exists lies above the level of the new one.
        have above : i < j := by
          by_contra below
          have ancestor := represents.holds.shape.ancestors present (Nat.le_of_not_lt below)
            (by omega)
          rw [child] at ancestor
          cases ancestor
        refine Nat.le_trans climbed ?_
        simp only [next]
        omega

end RiscvSim

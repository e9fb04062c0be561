import RiscvSim.Lib.Bits

/-! Page-based virtual memory of RISC-V: entries, chains of tables, and what they translate to. -/

namespace SvPaging

/-- A page table entry. -/
abbrev Entry := BitVec 64

namespace Entry

/-- The entry can be used: it is valid, writable only if readable, and no reserved bit is set. -/
def Valid (pte : Entry) : Prop :=
  pte.getLsbD 0 = true ∧ (pte.getLsbD 2 = true → pte.getLsbD 1 = true) ∧
    ∀ i, (i = 8 ∨ i = 9 ∨ 54 ≤ i ∧ i < 64) → pte.getLsbD i = false

/-- The entry is a leaf: it can be read or executed. -/
def Leaf (pte : Entry) : Prop := pte.getLsbD 1 = true ∨ pte.getLsbD 3 = true

/-- The physical page number of an entry. -/
def number (pte : Entry) : Nat := pte.toNat / 2 ^ 10 % 2 ^ 44

/-- A leaf at a level stands for pages that start at a multiple of their size. -/
def Aligned (pte : Entry) (l : Nat) : Prop := pte.number % 2 ^ (9 * l) = 0

/-- The address that a leaf at a level gives for a virtual address. -/
def target (pte : Entry) (l : Nat) (va : BitVec 64) : Nat :=
  pte.number / 2 ^ (9 * l) * 2 ^ (12 + 9 * l) + va.toNat % 2 ^ (12 + 9 * l)

/-- The bits that are left to software are clear. -/
def SoftwareClear (pte : Entry) : Prop := pte.getLsbD 8 = false ∧ pte.getLsbD 9 = false

/-- Two entries differ at most in the bits that are left to software. -/
def SameButSoftware (left right : Entry) : Prop :=
  ∀ i, i ≠ 8 → i ≠ 9 → left.getLsbD i = right.getLsbD i

/-- Entries whose software bits are clear do not differ in them. -/
theorem SameButSoftware.eq {left right : Entry} (same : SameButSoftware left right)
    (leftClear : left.SoftwareClear) (rightClear : right.SoftwareClear) : left = right := by
  -- The two software bits are clear on both sides, and the others agree.
  apply BitVec.eq_of_getLsbD_eq
  intro i _
  by_cases first : i = 8
  · rw [first, leftClear.1, rightClear.1]
  · by_cases second : i = 9
    · rw [second, leftClear.2, rightClear.2]
    · exact same i first second

/-- An entry that can be used has clear software bits. -/
theorem Valid.softwareClear {pte : Entry} (valid : pte.Valid) : pte.SoftwareClear :=
  ⟨valid.2.2 8 (.inl rfl), valid.2.2 9 (.inr (.inl rfl))⟩

/-- A page number has forty-four bits. -/
theorem number_lt (pte : Entry) : pte.number < 2 ^ 44 := Nat.mod_lt _ (Nat.two_pow_pos 44)

end Entry

/-- The bits of an address above those that are translated repeat the highest of these. -/
def Canonical (levels : Nat) (va : BitVec 64) : Prop :=
  ∀ i, 11 + 9 * levels ≤ i → i < 64 → va.getLsbD i = va.getLsbD 63

/-- Two addresses agree in the bits that a number of levels translates. -/
def SameLow (levels : Nat) (va other : BitVec 64) : Prop :=
  va.toNat % 2 ^ (12 + 9 * levels) = other.toNat % 2 ^ (12 + 9 * levels)

instance (levels : Nat) (va other : BitVec 64) : Decidable (SameLow levels va other) :=
  inferInstanceAs (Decidable (_ = _))

/-- The page number of a virtual address at a level. -/
def vpn (va : BitVec 64) (i : Nat) : Nat := va.toNat / 2 ^ (12 + 9 * i) % 2 ^ 9

/-- The bits that are translated decide the page numbers. -/
theorem SameLow.vpn {levels : Nat} {va other : BitVec 64} (same : SameLow levels va other) {i : Nat}
    (inside : i < levels) : vpn va i = vpn other i := by
  -- A page number is cut from the bits below the highest level.
  have cut (addr : BitVec 64) : SvPaging.vpn addr i =
      addr.toNat % 2 ^ (12 + 9 * levels) / 2 ^ (12 + 9 * i) % 2 ^ 9 := by
    rw [Bits.mod_pow_div_pow _ (by omega), Nat.mod_mod_of_dvd _ (Nat.pow_dvd_pow 2 (by omega))]
    rfl
  rw [cut va, cut other, same]

/-- The bits that are translated decide the target of a leaf. -/
theorem SameLow.target {levels : Nat} {va other : BitVec 64} (same : SameLow levels va other)
    {l : Nat} (inside : l < levels) (pte : Entry) : pte.target l va = pte.target l other := by
  -- The offset in a page of any level lies below the highest level's bits.
  have cut (addr : BitVec 64) : addr.toNat % 2 ^ (12 + 9 * l) =
      addr.toNat % 2 ^ (12 + 9 * levels) % 2 ^ (12 + 9 * l) :=
    (Nat.mod_mod_of_dvd _ (Nat.pow_dvd_pow 2 (by omega))).symm
  rw [Entry.target, Entry.target, cut va, cut other, same]

/-- The address of the entry that a virtual address selects in a table. -/
def entryAddr (table : Nat) (va : BitVec 64) (i : Nat) : Nat := table * 2 ^ 12 + vpn va i * 8

section walk

variable (memory : Nat → Option Entry) (va : BitVec 64)

/-- The entry that a virtual address selects in a table of a level. -/
def entryAt (i table : Nat) : Option Entry := memory (entryAddr table va i)

/-- A chain of links leads from a table of one level to a table of another. -/
inductive Reaches : (i table l last : Nat) → Prop
  | here (i table : Nat) : Reaches i table i table
  | down {i table l last : Nat} {link : Entry} : entryAt memory va (i + 1) table = some link →
    link.Valid → ¬link.Leaf → Reaches i link.number l last → Reaches (i + 1) table l last

/-- No chain goes on from a table: its entry is no link, or there is no level below. -/
def Stops (l last : Nat) : Prop :=
  ∀ link, entryAt memory va l last = some link → link.Valid → ¬link.Leaf → l = 0

/-- A chain meets an entry that is not there. -/
def Missing (levels root : Nat) : Prop :=
  ∃ l last, Reaches memory va (levels - 1) root l last ∧ entryAt memory va l last = none

/-- A chain from a table meets an entry with a property. -/
def Meets (property : Entry → Prop) (i table : Nat) : Prop :=
  ∃ l last pte, Reaches memory va i table l last ∧ entryAt memory va l last = some pte ∧
    property pte

/-- A chain meets a leaf at a level. -/
def FindsLeaf (levels root l : Nat) (pte : Entry) : Prop :=
  ∃ last, Reaches memory va (levels - 1) root l last ∧ entryAt memory va l last = some pte ∧
    pte.Valid ∧ pte.Leaf

/-- The tables translate the address, with an aligned leaf that is allowed. -/
def Translates (allowed : Entry → Prop) (levels root pa : Nat) : Prop :=
  ∃ l < levels, ∃ pte, FindsLeaf memory va levels root l pte ∧ allowed pte ∧ pte.Aligned l ∧
    pa = pte.target l va

variable {memory va} {i table l last levels root : Nat}

/-- What a chain meets from a table below, it meets from the table above. -/
theorem Meets.down {property : Entry → Prop} {link : Entry}
    (found : entryAt memory va (i + 1) table = some link) (valid : link.Valid)
    (linked : ¬link.Leaf) (meets : Meets memory va property i link.number) :
    Meets memory va property (i + 1) table := by
  obtain ⟨l, last, pte, reaches, met, holds⟩ := meets
  exact ⟨l, last, pte, reaches.down found valid linked, met, holds⟩

/-- Chains lead downwards. -/
theorem Reaches.level_le (reaches : Reaches memory va i table l last) : l ≤ i := by
  -- By induction on the chain, each link goes down one level.
  induction reaches with
  | here => exact Nat.le_refl _
  | down _ _ _ _ ih => omega

/-- A table whose entry is missing or a leaf stops every chain. -/
theorem stops_of_none (missing : entryAt memory va l last = none) : Stops memory va l last := by
  -- No entry means no link to follow.
  intro link found
  cases missing.symm.trans found

/-- A leaf stops every chain. -/
theorem stops_of_leaf {pte : Entry} (found : entryAt memory va l last = some pte)
    (leaf : pte.Leaf) : Stops memory va l last := by
  -- A link is no leaf, and the entry is one.
  intro link other valid linked
  cases found.symm.trans other
  exact absurd leaf linked

/-- Chains that stop stop at the same table. -/
theorem Reaches.unique (first : Reaches memory va i table l last) {otherLevel other : Nat}
    (second : Reaches memory va i table otherLevel other) (firstStops : Stops memory va l last)
    (secondStops : Stops memory va otherLevel other) : l = otherLevel ∧ last = other := by
  -- By induction on the first chain, the second one follows the same links.
  -- A chain that ends where it starts stops there, so the other one does as well.
  induction first with
  | here i table =>
    cases second with
    | here => exact ⟨rfl, rfl⟩
    | down found valid linked _ => cases firstStops _ found valid linked
  | down found valid linked _ ih =>
    cases second with
    | here => cases secondStops _ found valid linked
    | down otherFound _ _ rest =>
      cases found.symm.trans otherFound
      exact ih rest firstStops

/-- An address has one leaf at most. -/
theorem FindsLeaf.unique {otherLevel : Nat} {pte otherPte : Entry}
    (first : FindsLeaf memory va levels root l pte)
    (second : FindsLeaf memory va levels root otherLevel otherPte) :
    l = otherLevel ∧ pte = otherPte := by
  obtain ⟨last, reaches, found, _, leaf⟩ := first
  obtain ⟨other, otherReaches, otherFound, _, otherLeaf⟩ := second
  -- Both chains stop at the same table, which selects one entry.
  obtain ⟨rfl, rfl⟩ := reaches.unique otherReaches (stops_of_leaf found leaf)
    (stops_of_leaf otherFound otherLeaf)
  cases found.symm.trans otherFound
  exact ⟨rfl, rfl⟩

/-- An address with a leaf meets no missing entry. -/
theorem FindsLeaf.not_missing {pte : Entry} (finds : FindsLeaf memory va levels root l pte) :
    ¬Missing memory va levels root := by
  -- The missing entry would be the leaf's, as both end the same chain.
  intro missing
  obtain ⟨last, reaches, found, _, leaf⟩ := finds
  obtain ⟨_, other, otherReaches, none⟩ := missing
  obtain ⟨rfl, rfl⟩ := reaches.unique otherReaches (stops_of_leaf found leaf) (stops_of_none none)
  cases found.symm.trans none

/-- A chain that stops at an entry that is no leaf finds none and misses none. -/
theorem not_finds_of_stops {pte : Entry} (reaches : Reaches memory va (levels - 1) root l last)
    (found : entryAt memory va l last = some pte) (stops : Stops memory va l last)
    (useless : ¬(pte.Valid ∧ pte.Leaf)) :
    ¬Missing memory va levels root ∧
      ∀ otherLevel otherPte, ¬FindsLeaf memory va levels root otherLevel otherPte := by
  constructor
  · -- Whatever another chain ends at, it is this table and this entry.
    intro missing
    obtain ⟨_, other, otherReaches, none⟩ := missing
    obtain ⟨rfl, rfl⟩ := reaches.unique otherReaches stops (stops_of_none none)
    cases found.symm.trans none
  · intro otherLevel otherPte finds
    obtain ⟨other, otherReaches, otherFound, valid, leaf⟩ := finds
    obtain ⟨rfl, rfl⟩ := reaches.unique otherReaches stops (stops_of_leaf otherFound leaf)
    cases found.symm.trans otherFound
    exact useless ⟨valid, leaf⟩

/-- A leaf that is used lies below the first level. -/
theorem FindsLeaf.level_lt (positive : 0 < levels) {pte : Entry}
    (finds : FindsLeaf memory va levels root l pte) : l < levels := by
  -- The chain starts at the highest level and leads downwards.
  obtain ⟨_, reaches, _⟩ := finds
  have := reaches.level_le
  omega

end walk

/-- Two memories hold the same entries, but for the bits that are left to software. -/
def SameTables (left right : Nat → Option Entry) : Prop :=
  ∀ addr, addr % 8 = 0 → left addr = none ∧ right addr = none ∨
    ∃ pte other, left addr = some pte ∧ right addr = some other ∧ pte.SameButSoftware other

end SvPaging

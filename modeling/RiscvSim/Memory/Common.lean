import RiscvSim.Common

/-! Pages: the split of an address into a page address and an offset. -/

namespace RiscvSim

/-- The number of offset bits in a page. -/
def pageBitSize : Nat := 12

/-- The size of a page in bytes. -/
def pageSize : Nat := 2 ^ pageBitSize

/-- The mask of the offset bits. -/
def pageOffsetMask : PhysAddr := BitVec.ofNat 64 (pageSize - 1)

/-- A physical page number. -/
abbrev PPN := BitVec 64

/-- A virtual page number. -/
abbrev VPN := BitVec 64

/-- The mask of the bits that are zero in an address aligned to the given size. -/
def addrAlignMask (bytes : Nat) : VirtAddr := BitVec.ofNat 64 (bytes - 1)

/-- The offset of an address in its page. -/
def pageOffset (addr : PhysAddr) : PhysAddr := addr &&& pageOffsetMask

/-- The address of the page that holds an address. -/
def pageBase (addr : PhysAddr) : PhysAddr := addr &&& ~~~pageOffsetMask

/-- The page offset is the remainder by the page size. -/
@[simp] theorem toNat_pageOffset (addr : PhysAddr) : (pageOffset addr).toNat = addr.toNat % 4096 :=
  -- The offset mask is the word of twelve low ones.
  Bits.toNat_and_lowMask addr pageBitSize (by decide)

/-- The page address is the multiple of the page size just below. -/
@[simp] theorem toNat_pageBase (addr : PhysAddr) :
    (pageBase addr).toNat = addr.toNat - addr.toNat % 4096 :=
  -- The inverse of the offset mask clears the offset.
  Bits.toNat_and_not_lowMask addr pageBitSize (by decide)

/-- A page address has no offset. -/
@[simp] theorem pageBase_pageBase (addr : PhysAddr) : pageBase (pageBase addr) = pageBase addr := by
  -- The first step has cleared the offset already.
  apply BitVec.eq_of_toNat_eq
  simp only [toNat_pageBase]
  omega

/-- Two addresses share a page when their page numbers agree. -/
theorem pageBase_eq_iff (left right : PhysAddr) :
    pageBase left = pageBase right ↔ left.toNat / 4096 = right.toNat / 4096 := by
  -- Page addresses are the page numbers times the page size.
  rw [← BitVec.toNat_inj, toNat_pageBase, toNat_pageBase]
  omega

/-- A page address is a multiple of the page size. -/
theorem pageBase_eq_self_iff (addr : PhysAddr) : pageBase addr = addr ↔ addr.toNat % 4096 = 0 := by
  -- What is taken away from an address is its offset.
  rw [← BitVec.toNat_inj, toNat_pageBase]
  omega

/-- An address is its page address plus its offset. -/
theorem pageBase_add_pageOffset (addr : PhysAddr) : pageBase addr + pageOffset addr = addr := by
  -- The sum does not wrap, as it gives the address back.
  apply BitVec.eq_of_toNat_eq
  have bound := addr.isLt
  rw [BitVec.toNat_add, toNat_pageBase, toNat_pageOffset]
  omega

/-- Moving inside a page adds to the offset alone. -/
theorem toNat_add_in_page (addr : PhysAddr) {i : Nat} (inside : addr.toNat % 4096 + i < 4096) :
    (addr + BitVec.ofNat 64 i).toNat = addr.toNat + i := by
  -- The end of the page is at most the end of the address space.
  have bound := addr.isLt
  rw [BitVec.toNat_add, BitVec.toNat_ofNat]
  omega

/-- A position inside a run that does not cross its page is a distance from the start. -/
theorem toNat_sub_lt_iff (addr start : PhysAddr) {count : Nat}
    (inside : start.toNat % 4096 + count ≤ 4096) :
    (addr - start).toNat < count ↔ start.toNat ≤ addr.toNat ∧ addr.toNat < start.toNat + count := by
  -- The run does not wrap, so only addresses from the start upwards are close to it.
  have bound := addr.isLt
  have startBound := start.isLt
  rw [BitVec.toNat_sub]
  omega

/-- The distance of an address at or above the start. -/
theorem toNat_sub_of_ge {addr start : PhysAddr} (above : start.toNat ≤ addr.toNat) :
    (addr - start).toNat = addr.toNat - start.toNat :=
  BitVec.toNat_sub_of_le above

end RiscvSim

import RiscvSim.Memory.Common
import Mathlib.Data.List.Basic

/-! Host pages: the mappings behind RAM and the allocator that hands them out in order. -/

namespace RiscvSim

/-- A non-null host address: the mapping it points into and its byte offset there. -/
structure HostPtr where
  region : Nat
  offset : Nat
  deriving DecidableEq, Repr

/-- The address a number of bytes further in the same mapping. -/
def HostPtr.add (ptr : HostPtr) (bytes : Nat) : HostPtr :=
  { ptr with offset := ptr.offset + bytes }

/-- A wrapper of one anonymous host mapping. -/
structure MMap where
  ppn : Nat
  ptr : HostPtr
  deriving DecidableEq, Repr

/-- Host pages allocator.

Sizes are unbounded here: a request of `2^64` bytes cannot be mapped, so no later page exists.
The system maps zeroed memory that nothing else uses, so each mapping is a region of its own.
-/
structure PageAllocator where
  mmaps : List MMap
  currPpn : Nat
  /-- The constructor maps the first region. -/
  nonempty : mmaps ≠ []
  /-- Regions are numbered in the order they were mapped. -/
  regions : ∀ (i : Nat) (mmap : MMap), mmaps[i]? = some mmap → mmap.ptr = ⟨i, 0⟩
  /-- No region is empty. -/
  sized : ∀ mmap ∈ mmaps, 0 < mmap.ppn
  /-- The cursor never passes the end of the last region. -/
  cursor : currPpn ≤ (mmaps.getLast nonempty).ppn

namespace PageAllocator

/-- The growth factor of the pool. -/
def allocFactor : Nat := 2

/-- Map the first region. -/
def new (ppn : Nat) (positive : 0 < ppn) : PageAllocator where
  mmaps := [⟨ppn, ⟨0, 0⟩⟩]
  currPpn := 0
  nonempty := by simp
  regions := by
    -- There is one region, and it has the first number.
    intro i mmap found
    cases i with
    | zero => simp at found; subst found; rfl
    | succ i => simp at found
  sized := by simp [positive]
  cursor := Nat.zero_le _

/-- The region that pages are currently taken from. -/
def back (alloc : PageAllocator) : MMap :=
  alloc.mmaps.getLast alloc.nonempty

/-- The last region is found at the last position. -/
theorem back_get (alloc : PageAllocator) :
    alloc.mmaps[alloc.mmaps.length - 1]? = some alloc.back := by
  -- The list is not empty, so its last element has an index.
  rw [back, List.getLast_eq_getElem, List.getElem?_eq_getElem]

/-- The last region carries the last number. -/
theorem back_ptr (alloc : PageAllocator) : alloc.back.ptr = ⟨alloc.mmaps.length - 1, 0⟩ :=
  -- Regions are numbered by position.
  alloc.regions _ _ alloc.back_get

/-- The region that is mapped after the others, twice as large as the last one. -/
def nextRegion (alloc : PageAllocator) : MMap :=
  ⟨alloc.back.ppn * allocFactor, ⟨alloc.mmaps.length, 0⟩⟩

/-- The next region takes the next number. -/
theorem grow_regions (alloc : PageAllocator) (i : Nat) (mmap : MMap)
    (found : (alloc.mmaps ++ [alloc.nextRegion])[i]? = some mmap) : mmap.ptr = ⟨i, 0⟩ := by
  -- A region is an old one, the new one, or there is none at this position.
  rcases Nat.lt_trichotomy i alloc.mmaps.length with before | same | after
  · -- Earlier regions keep their positions.
    rw [List.getElem?_append_left before] at found
    exact alloc.regions i mmap found
  · subst same
    rw [List.getElem?_concat_length] at found
    cases found
    rfl
  · rw [List.getElem?_eq_none (by rw [List.length_append, List.length_singleton]; omega)] at found
    cases found

/-- The next region is not empty either. -/
theorem grow_sized (alloc : PageAllocator) (mmap : MMap)
    (member : mmap ∈ alloc.mmaps ++ [alloc.nextRegion]) : 0 < mmap.ppn := by
  rcases List.mem_append.mp member with old | new
  · exact alloc.sized mmap old
  · -- It doubles a size that is positive.
    have last := alloc.sized alloc.back (List.getLast_mem _)
    rw [List.mem_singleton.mp new]
    exact Nat.mul_pos last Nat.two_pos

/-- Map a larger region and start taking pages from it. -/
def grow (alloc : PageAllocator) : PageAllocator where
  mmaps := alloc.mmaps ++ [alloc.nextRegion]
  currPpn := 0
  nonempty := List.append_ne_nil_of_right_ne_nil _ (List.cons_ne_nil _ _)
  regions := alloc.grow_regions
  sized := alloc.grow_sized
  cursor := Nat.zero_le _

/-- A region that was just mapped still has all its pages. -/
theorem grow_room (alloc : PageAllocator) : alloc.grow.currPpn < alloc.grow.back.ppn :=
  -- The cursor starts at zero, and no region is empty.
  alloc.grow.sized _ (List.getLast_mem _)

/-- Take the next page of the last region. -/
def take (alloc : PageAllocator) (room : alloc.currPpn < alloc.back.ppn) :
    HostPtr × PageAllocator :=
  (alloc.back.ptr.add (alloc.currPpn * pageSize),
    { alloc with currPpn := alloc.currPpn + 1, cursor := room })

/-- Allocate one host page, mapping a larger region when the last one is used up. -/
def allocPage (alloc : PageAllocator) : HostPtr × PageAllocator :=
  if full : alloc.currPpn = alloc.back.ppn then
    alloc.grow.take alloc.grow_room
  else
    alloc.take (Nat.lt_of_le_of_ne alloc.cursor full)

/-- The byte behind a pointer belongs to a page that was handed out. -/
def Owned (alloc : PageAllocator) (ptr : HostPtr) : Prop :=
  -- Every region but the last was handed out to its end.
  ∃ mmap, alloc.mmaps[ptr.region]? = some mmap ∧
    ptr.offset < (if ptr.region + 1 = alloc.mmaps.length then alloc.currPpn else mmap.ppn) * pageSize

/-- The byte behind a pointer lies in the page that starts at another pointer. -/
def InPage (page ptr : HostPtr) : Prop :=
  ptr.region = page.region ∧ page.offset ≤ ptr.offset ∧ ptr.offset < page.offset + pageSize

/-- Nothing has been handed out at first. -/
theorem not_owned_new (ppn : Nat) (positive : 0 < ppn) (ptr : HostPtr) :
    ¬(new ppn positive).Owned ptr := by
  -- The only region is the last one, and its cursor is at its start.
  rintro ⟨mmap, found, below⟩
  have within : ptr.region < 1 := by
    simpa [new] using (List.getElem?_eq_some_iff.mp found).1
  have last : ptr.region + 1 = 1 := by omega
  simp [new, last] at below

/-- Mapping a region after the last one was used up hands out nothing. -/
theorem owned_grow (alloc : PageAllocator) (full : alloc.currPpn = alloc.back.ppn)
    (ptr : HostPtr) : alloc.grow.Owned ptr ↔ alloc.Owned ptr := by
  have last := alloc.back_get
  have some : 0 < alloc.mmaps.length := List.length_pos_iff.mpr alloc.nonempty
  constructor
  · rintro ⟨mmap, found, below⟩
    simp only [grow, List.length_append, List.length_singleton] at found below
    by_cases newest : ptr.region = alloc.mmaps.length
    · -- The new region has no page yet.
      simp [newest] at below
    · have before : ptr.region < alloc.mmaps.length := by
        -- Every other region has an old number.
        have := (List.getElem?_eq_some_iff.mp found).1
        simp at this
        omega
      rw [List.getElem?_append_left before] at found
      rw [if_neg (by omega)] at below
      refine ⟨mmap, found, ?_⟩
      split
      · -- The region that was last is used up, so its cursor is its size.
        rename_i final
        have same : ptr.region = alloc.mmaps.length - 1 := by omega
        rw [same, last] at found
        cases found
        rwa [full]
      · -- An old region keeps its number, and is not the last one any more.
        exact below
  · rintro ⟨mmap, found, below⟩
    have before := (List.getElem?_eq_some_iff.mp found).1
    refine ⟨mmap, ?_, ?_⟩
    · rw [grow, List.getElem?_append_left before]
      exact found
    · simp only [grow, List.length_append, List.length_singleton]
      -- What was below the cursor is below the size, as the cursor was at the end.
      rw [if_neg (by omega)]
      split at below
      · rename_i final
        have same : ptr.region = alloc.mmaps.length - 1 := by omega
        rw [same, last] at found
        cases found
        rwa [full] at below
      · exact below

/-- Taking a page hands out exactly the bytes of that page. -/
theorem owned_take (alloc : PageAllocator) (room : alloc.currPpn < alloc.back.ppn)
    (ptr : HostPtr) :
    (alloc.take room).2.Owned ptr ↔ alloc.Owned ptr ∨ InPage (alloc.take room).1 ptr := by
  have last := alloc.back_get
  have some : 0 < alloc.mmaps.length := List.length_pos_iff.mpr alloc.nonempty
  simp only [Owned, take, InPage, HostPtr.add, back_ptr, Nat.zero_add]
  constructor
  · rintro ⟨mmap, found, below⟩
    -- Only the last region has a cursor, which has moved by one page.
    by_cases final : ptr.region + 1 = alloc.mmaps.length
    · rw [if_pos final, Nat.succ_mul] at below
      by_cases old : ptr.offset < alloc.currPpn * pageSize
      · exact .inl ⟨mmap, found, by rwa [if_pos final]⟩
      · exact .inr ⟨by omega, by omega, below⟩
    · exact .inl ⟨mmap, found, by rw [if_neg final] at below ⊢; exact below⟩
  · rintro (⟨mmap, found, below⟩ | ⟨region, lower, upper⟩)
    · -- What was handed out lies below the old cursor, and so below the new one.
      refine ⟨mmap, found, ?_⟩
      split
      · rename_i final
        rw [if_pos final] at below
        rw [Nat.succ_mul]
        omega
      · rename_i final
        rwa [if_neg final] at below
    · -- The page that is taken lies between the two cursors.
      refine ⟨alloc.back, by rw [region]; exact last, ?_⟩
      rw [if_pos (by omega), Nat.succ_mul]
      exact upper

/-- A page that is taken was not handed out before. -/
theorem take_fresh (alloc : PageAllocator) (room : alloc.currPpn < alloc.back.ppn)
    {ptr : HostPtr} (inside : InPage (alloc.take room).1 ptr) : ¬alloc.Owned ptr := by
  -- The page starts where the handed out part of its region ends.
  have some : 0 < alloc.mmaps.length := List.length_pos_iff.mpr alloc.nonempty
  rintro ⟨mmap, found, below⟩
  simp only [take, InPage, HostPtr.add, back_ptr, Nat.zero_add] at inside
  rw [if_pos (by omega)] at below
  omega

/-- Allocating a page hands out exactly the bytes of that page. -/
theorem owned_allocPage (alloc : PageAllocator) (ptr : HostPtr) :
    alloc.allocPage.2.Owned ptr ↔ alloc.Owned ptr ∨ InPage alloc.allocPage.1 ptr := by
  -- Growing first changes nothing that was handed out.
  unfold allocPage
  split
  · rename_i full
    rw [owned_take, owned_grow alloc full]
  · exact alloc.owned_take _ ptr

/-- An allocated page was not handed out before. -/
theorem allocPage_fresh (alloc : PageAllocator) {ptr : HostPtr}
    (inside : InPage alloc.allocPage.1 ptr) : ¬alloc.Owned ptr := by
  -- Growing hands out nothing, so what is fresh afterwards was fresh before.
  unfold allocPage at inside
  split at inside
  · rename_i full
    rw [← alloc.owned_grow full]
    exact alloc.grow.take_fresh _ inside
  · exact alloc.take_fresh _ inside

/-- Allocated pages start at a multiple of the page size. -/
theorem allocPage_aligned (alloc : PageAllocator) : alloc.allocPage.1.offset % pageSize = 0 := by
  -- A region starts at offset zero, and pages are taken whole.
  unfold allocPage
  split <;> simp [take, HostPtr.add, back_ptr]

end PageAllocator

end RiscvSim

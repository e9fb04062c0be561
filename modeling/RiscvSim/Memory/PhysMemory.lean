import RiscvSim.Memory.PageAllocator
import RiscvSim.Lib.LittleEndian
import Mathlib.Logic.Function.Basic

/-! RAM pages backed by host pages, and the reads and writes that go through them. -/

namespace RiscvSim

open PageAllocator (InPage)

/-- Random access memory: a map from RAM pages to host pages. -/
structure RAM where
  pageAllocator : PageAllocator
  mapping : PhysAddr → Option HostPtr
  /-- Every mapped host page was handed out by the allocator. -/
  owned : ∀ page host ptr, mapping page = some host → InPage host ptr → pageAllocator.Owned ptr
  /-- No host byte stands behind two RAM pages. -/
  distinct : ∀ left right host other ptr, mapping left = some host → mapping right = some other →
    InPage host ptr → InPage other ptr → left = right

namespace RAM

/-- The page number of the sixteenth mebibyte. -/
def ppn16Mb : Nat := 2 ^ 12

/-- A memory with no pages. -/
def new : RAM where
  pageAllocator := PageAllocator.new ppn16Mb (by decide)
  mapping := fun _ => none
  -- Nothing is mapped yet.
  owned := by intro page host ptr found; cases found
  distinct := by intro left right host other ptr found; cases found

/-- Keep the mapping and drop a host page that turned out not to be needed. -/
def discard (ram : RAM) : RAM where
  pageAllocator := ram.pageAllocator.allocPage.2
  mapping := ram.mapping
  owned := by
    intro page host ptr found inside
    -- The allocator owns one more page, and none less.
    exact (ram.pageAllocator.owned_allocPage ptr).mpr (.inl (ram.owned page host ptr found inside))
  distinct := ram.distinct

/-- Map a RAM page to a freshly allocated host page. -/
def emplace (ram : RAM) (page : PhysAddr) : RAM where
  pageAllocator := ram.pageAllocator.allocPage.2
  mapping := Function.update ram.mapping page (some ram.pageAllocator.allocPage.1)
  owned := by
    -- The new page is handed out now, and the others were handed out before.
    intro other host ptr found inside
    apply (ram.pageAllocator.owned_allocPage ptr).mpr
    by_cases same : other = page
    · subst same
      rw [Function.update_self] at found
      cases found
      exact .inr inside
    · rw [Function.update_of_ne same] at found
      exact .inl (ram.owned other host ptr found inside)
  distinct := by
    -- A page handed out now shares no byte with one handed out before.
    intro left right host other ptr leftFound rightFound leftInside rightInside
    by_cases leftNew : left = page <;> by_cases rightNew : right = page
    · rw [leftNew, rightNew]
    · rw [leftNew, Function.update_self] at leftFound
      rw [Function.update_of_ne rightNew] at rightFound
      cases leftFound
      exact absurd (ram.owned right other ptr rightFound rightInside)
        (ram.pageAllocator.allocPage_fresh leftInside)
    · rw [rightNew, Function.update_self] at rightFound
      rw [Function.update_of_ne leftNew] at leftFound
      cases rightFound
      exact absurd (ram.owned left host ptr leftFound leftInside)
        (ram.pageAllocator.allocPage_fresh rightInside)
    · rw [Function.update_of_ne leftNew] at leftFound
      rw [Function.update_of_ne rightNew] at rightFound
      exact ram.distinct left right host other ptr leftFound rightFound leftInside rightInside

/-- Add a RAM page to the mapping, telling whether it was not there yet. -/
def addPage (ram : RAM) (page : PhysAddr) : Except Abort (Bool × RAM) :=
  if page &&& pageOffsetMask ≠ 0 then .error .assertion
  -- The host page is allocated before the mapping is looked up.
  else if (ram.mapping page).isSome then .ok (false, ram.discard)
  else .ok (true, ram.emplace page)

/-- Adding a page takes nothing back. -/
theorem addPage_owned {ram added : RAM} {page : PhysAddr} {fresh : Bool}
    (result : ram.addPage page = .ok (fresh, added)) {ptr : HostPtr}
    (owned : ram.pageAllocator.Owned ptr) : added.pageAllocator.Owned ptr := by
  -- Either way the allocator handed out one more page.
  have kept := (ram.pageAllocator.owned_allocPage ptr).mpr (.inl owned)
  unfold addPage at result
  split at result
  · cases result
  · split at result <;> cases result <;> exact kept

/-- Get the host page that a RAM page is mapped to. -/
def getHostPagePtr (ram : RAM) (page : PhysAddr) : Option HostPtr :=
  -- The callers mask the offset away, so the alignment assertion holds.
  ram.mapping page

end RAM

/-- Physical memory: the RAM mapping together with the bytes of the host pages. -/
structure PhysMemory where
  ram : RAM
  heap : HostPtr → BitVec 8
  /-- Bytes that were never handed out are still the zeros the system mapped. -/
  zeroed : ∀ ptr, ¬ram.pageAllocator.Owned ptr → heap ptr = 0

/-- The result of a physical memory read: its status, the host page, and the destination. -/
structure ReadResult (n : Nat) where
  status : SimStatus
  hostPagePtr : Option HostPtr
  dst : BitVec (8 * n)

/-- The result of a physical memory write. -/
structure WriteResult where
  status : SimStatus
  hostPagePtr : Option HostPtr

namespace PhysMemory

instance (alloc : PageAllocator) (ptr : HostPtr) : Decidable (alloc.Owned ptr) :=
  -- The region is found by its position, so only its bound is left to compare.
  match found : alloc.mmaps[ptr.region]? with
  | none => isFalse (by rintro ⟨mmap, other, _⟩; rw [found] at other; cases other)
  | some mmap =>
    decidable_of_iff (ptr.offset <
      (if ptr.region + 1 = alloc.mmaps.length then alloc.currPpn else mmap.ppn) * pageSize)
      ⟨fun below => ⟨mmap, found, below⟩,
        fun ⟨_, other, below⟩ => by rw [found] at other; cases other; exact below⟩

/-- Physical memory without RAM pages. -/
def new : PhysMemory where
  ram := RAM.new
  heap := fun _ => 0
  zeroed := fun _ _ => rfl

/-- The bytes behind a pointer can be accessed. -/
def ValidPtr (memory : PhysMemory) (ptr : HostPtr) (bytes : Nat) : Prop :=
  ∀ i < bytes, memory.ram.pageAllocator.Owned (ptr.add i)

instance (memory : PhysMemory) (ptr : HostPtr) (bytes : Nat) :
    Decidable (memory.ValidPtr ptr bytes) :=
  inferInstanceAs (Decidable (∀ i < bytes, memory.ram.pageAllocator.Owned (ptr.add i)))

/-- The value behind a host pointer, on a little-endian host. -/
def load (memory : PhysMemory) (n : Nat) (ptr : HostPtr) : BitVec (8 * n) :=
  LittleEndian.fromBytes n fun i => memory.heap (ptr.add i)

/-- The bytes after a value is stored behind a host pointer. -/
def storeBytes (memory : PhysMemory) {n : Nat} (ptr : HostPtr) (value : BitVec (8 * n)) :
    HostPtr → BitVec 8 := fun other =>
  if other.region = ptr.region ∧ ptr.offset ≤ other.offset ∧ other.offset < ptr.offset + n
  then LittleEndian.byteAt value (other.offset - ptr.offset)
  else memory.heap other

/-- Behind a valid pointer only bytes change that were handed out. -/
theorem storeBytes_zeroed (memory : PhysMemory) {n : Nat} (ptr : HostPtr) (value : BitVec (8 * n))
    (valid : memory.ValidPtr ptr n) (other : HostPtr)
    (free : ¬memory.ram.pageAllocator.Owned other) : memory.storeBytes ptr value other = 0 := by
  -- A byte of the run that was stored to belongs to a page that was handed out.
  unfold storeBytes
  split
  · rename_i inside
    refine absurd (valid (other.offset - ptr.offset) (by omega)) ?_
    have same : ptr.add (other.offset - ptr.offset) = other := by
      obtain ⟨region, offset⟩ := other
      simp only at inside
      simp only [HostPtr.add, HostPtr.mk.injEq]
      omega
    rwa [same]
  · exact memory.zeroed other free

/-- Replace the value behind a valid host pointer. -/
def store (memory : PhysMemory) {n : Nat} (ptr : HostPtr) (value : BitVec (8 * n))
    (valid : memory.ValidPtr ptr n) : PhysMemory where
  ram := memory.ram
  heap := memory.storeBytes ptr value
  zeroed := memory.storeBytes_zeroed ptr value valid

/-- Add a RAM page. -/
def addRAMPage (memory : PhysMemory) (page : PhysAddr) : Except Abort (Bool × PhysMemory) :=
  match added : memory.ram.addPage page with
  | .error why => .error why
  | .ok (fresh, ram) =>
    -- The bytes stay, and those of the new page were not handed out before.
    .ok (fresh, { memory with
      ram := ram
      zeroed := fun ptr free => memory.zeroed ptr fun owned => free (RAM.addPage_owned added owned) })

/-- A run of bytes that does not cross its RAM page lies in the host page. -/
theorem inPage_add {host : HostPtr} {offset i n : Nat} (fits : offset + n ≤ pageSize)
    (inside : i < n) : InPage host ((host.add offset).add i) := by
  -- The run starts inside the host page and is short enough to end there.
  refine ⟨rfl, ?_, ?_⟩ <;> simp only [HostPtr.add] <;> omega

/-- A run of bytes inside the host page of a RAM page can be accessed. -/
theorem validPtr_of_page {memory : PhysMemory} {page : PhysAddr} {host : HostPtr} {offset n : Nat}
    (found : memory.ram.mapping page = some host) (fits : offset + n ≤ pageSize) :
    memory.ValidPtr (host.add offset) n :=
  -- Every byte of a mapped host page was handed out.
  fun _ inside => memory.ram.owned _ _ _ found (inPage_add fits inside)

/-- Read an integer of `n` bytes at the given address into a destination. -/
def read (memory : PhysMemory) {n : Nat} (physAddr : PhysAddr) (dst : BitVec (8 * n)) :
    ReadResult n :=
  if pageSize < (pageOffset physAddr).toNat + n then ⟨.physMemPageAlignError, none, dst⟩
  else
    match memory.ram.getHostPagePtr (pageBase physAddr) with
    | some host => ⟨.ok, some host, memory.load n (host.add (pageOffset physAddr).toNat)⟩
    | none => ⟨.physMemAccessFault, none, dst⟩

/-- Write an integer of `n` bytes at the given address. -/
def write (memory : PhysMemory) {n : Nat} (physAddr : PhysAddr) (value : BitVec (8 * n)) :
    WriteResult × PhysMemory :=
  if crosses : pageSize < (pageOffset physAddr).toNat + n then
    (⟨.physMemPageAlignError, none⟩, memory)
  else
    match found : memory.ram.getHostPagePtr (pageBase physAddr) with
    | some host =>
      (⟨.ok, some host⟩,
        memory.store (host.add (pageOffset physAddr).toNat) value
          (validPtr_of_page found (Nat.le_of_not_lt crosses)))
    | none => (⟨.physMemAccessFault, none⟩, memory)

end PhysMemory

end RiscvSim

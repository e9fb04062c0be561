import RiscvSim.Memory.PhysMemory

/-! The host side of RAM: mappings of the system, their wrappers, and the vector that owns them. -/

namespace RiscvSim.Host

/-- Why a call does not return. -/
inductive Failure where
  /-- A `SIM_ASSERT` whose condition is false. -/
  | assertion
  /-- The system refused a mapping. -/
  | badAlloc
  /-- A wrapper without a mapping was used. -/
  | nullMapping
  deriving DecidableEq, Repr

/-- The anonymous mappings of the host process. -/
structure Process where
  /-- The bytes of each mapping, zero where nothing is mapped. -/
  bytes : Nat → Nat := fun _ => 0
  /-- The number of the next mapping. -/
  next : Nat := 0

/-- What the environment decides in a call. -/
structure Answer where
  /-- The system grants a mapping. -/
  grants : Bool
  /-- The vector moves to larger storage. -/
  reallocates : Bool
  deriving DecidableEq, Repr

namespace Process

/-- Map fresh memory, unless nothing is asked for or the system refuses. -/
def mmap (process : Process) (bytes : BitVec 64) (grants : Bool) : Option (HostPtr × Process) :=
  if grants ∧ bytes ≠ 0 then
    some (⟨process.next, 0⟩,
      { bytes := Function.update process.bytes process.next bytes.toNat, next := process.next + 1 })
  else none

/-- Unmap a mapping, whose whole size is always given. -/
def munmap (process : Process) (ptr : HostPtr) : Process :=
  { process with bytes := Function.update process.bytes ptr.region 0 }

/-- The byte behind a pointer is mapped. -/
def Mapped (process : Process) (ptr : HostPtr) : Prop :=
  ptr.offset < process.bytes ptr.region

end Process

/-- A wrapper of a mapping, which is empty after it was moved from. -/
structure MMap where
  ppn : PPN := 0
  ptr : Option HostPtr := none
  deriving DecidableEq, Repr

namespace MMap

/-- Map a number of pages. -/
def construct (process : Process) (ppn : PPN) (grants : Bool) :
    Except Failure (MMap × Process) :=
  match process.mmap (ppn * BitVec.ofNat 64 pageSize) grants with
  | none => if ppn = 0 then .error .assertion else .error .badAlloc
  | some (ptr, process) => .ok (⟨ppn, some ptr⟩, process)

/-- Construct a wrapper by moving, which swaps the fields: the new wrapper and what is left. -/
def moveConstruct (rhs : MMap) : MMap × MMap := (rhs, {})

/-- Unmap what a wrapper still holds. -/
def destroy (process : Process) (mmap : MMap) : Process :=
  match mmap.ptr with
  | none => process
  | some ptr => process.munmap ptr

end MMap

/-- Move the elements of a vector to other storage and destroy what is left of them. -/
def relocate (process : Process) : List MMap → List MMap × Process
  | [] => ([], process)
  | mmap :: rest =>
    let (moved, left) := mmap.moveConstruct
    let (others, process) := relocate (left.destroy process) rest
    (moved :: others, process)

/-- Move a temporary behind the elements of a vector and destroy what is left of it. -/
def emplaceBack (process : Process) (mmaps : List MMap) (temporary : MMap) (reallocates : Bool) :
    List MMap × Process :=
  let (element, left) := temporary.moveConstruct
  let (kept, process) := if reallocates then relocate process mmaps else (mmaps, process)
  (kept ++ [element], left.destroy process)

/-- Host pages allocator, with sizes as the machine counts them. -/
structure PageAllocator where
  mmaps : List MMap := []
  currPpn : PPN := 0
  deriving DecidableEq, Repr

namespace PageAllocator

/-- Map the first region. -/
def new (process : Process) (ppn : PPN) (grants : Bool) :
    Except Failure (PageAllocator × Process) :=
  if ppn = 0 then .error .assertion
  else do
    let (mmap, process) ← MMap.construct process ppn grants
    return ({ mmaps := [mmap] }, process)

/-- Map a region of twice the size when the last one is used up. -/
def reserve (process : Process) (alloc : PageAllocator) (answer : Answer) :
    Except Failure (PageAllocator × Process) :=
  let endPpn := (alloc.mmaps.getLastD {}).ppn
  if alloc.currPpn = endPpn then do
    let newPpn := endPpn * BitVec.ofNat 64 RiscvSim.PageAllocator.allocFactor
    let (temporary, process) ← MMap.construct process newPpn answer.grants
    let (mmaps, process) := emplaceBack process alloc.mmaps temporary answer.reallocates
    return ({ mmaps := mmaps, currPpn := 0 }, process)
  else return (alloc, process)

/-- Allocate one host page. -/
def allocPage (process : Process) (alloc : PageAllocator) (answer : Answer) :
    Except Failure (HostPtr × PageAllocator × Process) := do
  let (alloc, process) ← alloc.reserve process answer
  match (alloc.mmaps.getLastD {}).ptr with
  | none => .error .nullMapping
  | some ptr =>
    return (ptr.add (alloc.currPpn * BitVec.ofNat 64 pageSize).toNat,
      { alloc with currPpn := alloc.currPpn + 1 }, process)

/-- Call `allocPage` for each answer: the pages in order, and what is left. -/
def calls (process : Process) (alloc : PageAllocator) :
    List Answer → List HostPtr × PageAllocator × Process
  | [] => ([], alloc, process)
  | answer :: later =>
    match alloc.allocPage process answer with
    -- A call that throws has changed nothing.
    | .error _ => alloc.calls process later
    | .ok (page, alloc, process) =>
      let (pages, left) := alloc.calls process later
      (page :: pages, left)

end PageAllocator

/-- Random access memory over the host pages. -/
structure RAM where
  pageAllocator : PageAllocator
  mapping : PhysAddr → Option HostPtr := fun _ => none

namespace RAM

/-- A memory with no pages. -/
def new (grants : Bool) : Except Failure (RAM × Process) := do
  let (alloc, process) ← PageAllocator.new {} (BitVec.ofNat 64 RiscvSim.RAM.ppn16Mb) grants
  return ({ pageAllocator := alloc }, process)

/-- Add a RAM page to the mapping, telling whether it was not there yet. -/
def addPage (process : Process) (ram : RAM) (page : PhysAddr) (answer : Answer) :
    Except Failure (Bool × RAM × Process) :=
  if page &&& pageOffsetMask ≠ 0 then .error .assertion
  else do
    let (host, alloc, process) ← ram.pageAllocator.allocPage process answer
    -- A page that is there already keeps its pointer, and the new host page is lost.
    if (ram.mapping page).isSome then
      return (false, { ram with pageAllocator := alloc }, process)
    else
      return (true, ⟨alloc, Function.update ram.mapping page (some host)⟩, process)

/-- Call `addPage` for each page and answer. -/
def calls (process : Process) (ram : RAM) : List (PhysAddr × Answer) → RAM × Process
  | [] => (ram, process)
  | (page, answer) :: later =>
    match ram.addPage process page answer with
    | .error _ => ram.calls process later
    | .ok (_, ram, process) => ram.calls process later

end RAM

end RiscvSim.Host

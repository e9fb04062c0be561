import RiscvSim.Cache.Tlb
import RiscvSim.Cache.BbCache
import RiscvSim.Memory.Mmu64
import RiscvSim.Simulator.Dispatch

/-! The simulator: memory accesses through its caches, and the loop over basic blocks. -/

namespace RiscvSim

/-- The simulator. -/
structure Simulator extends Core where
  physMemory : PhysMemory := PhysMemory.new
  readTlb : TLB := {}
  writeTlb : TLB := {}
  fetchTlb : TLB := {}
  bbCache : BbCache := {}

/-- The kinds of access that load a value. -/
inductive LoadAccess where
  | read
  | fetch
  deriving DecidableEq, Repr

/-- The access type of a load. -/
def LoadAccess.accessType : LoadAccess → AccessType
  | read => .read
  | fetch => .fetch

namespace Simulator

/-- Translate a virtual address in the current privilege level. -/
def translateVa (sim : Simulator) (accessType : AccessType) (va : VirtAddr) :
    Except Abort TranslateResult :=
  translate sim.physMemory sim.hart.csrFile.mstatus64 sim.hart.csrFile.satp64 .user accessType va

/-- The cache that serves a kind of load. -/
def getReadTLB (sim : Simulator) : LoadAccess → TLB
  | .fetch => sim.fetchTlb
  | .read => sim.readTlb

/-- Replace the cache that serves a kind of load. -/
def setReadTLB (sim : Simulator) (tlb : TLB) : LoadAccess → Simulator
  | .fetch => { sim with fetchTlb := tlb }
  | .read => { sim with readTlb := tlb }

/-- Load an integer of `n` bytes from memory. -/
def loadInt (n : Nat) (access : LoadAccess) (sim : Simulator) (va : VirtAddr) :
    Except Abort (LoadResult n × Simulator) :=
  -- Check alignment.
  if va &&& addrAlignMask n ≠ 0 then .ok (⟨.simUnalignedLoad, 0⟩, sim)
  else
    -- Try to hit the cache.
    let (hit, hostAddr) := (sim.getReadTLB access).find va
    if hit then
      match hostAddr with
      | none => .error .invalidPointer
      | some hostAddr =>
        if sim.physMemory.ValidPtr hostAddr n then
          .ok (⟨.ok, sim.physMemory.load n hostAddr⟩, sim)
        else .error .invalidPointer
    else
      -- Translate the virtual address to a physical one.
      match sim.translateVa access.accessType va with
      | .error why => .error why
      | .ok ⟨mmuStatus, pa⟩ =>
        if mmuStatus ≠ .ok then .ok (⟨mmuStatus, 0⟩, sim)
        else
          -- Read physical memory.
          let result := sim.physMemory.read (n := n) pa 0
          if result.status ≠ .ok then .ok (⟨result.status, 0⟩, sim)
          -- Cache the translation.
          else
            .ok (⟨.ok, result.dst⟩,
              sim.setReadTLB ((sim.getReadTLB access).update va result.hostPagePtr) access)

/-- Store an integer of `n` bytes to memory. -/
def storeInt (n : Nat) (sim : Simulator) (va : VirtAddr) (value : BitVec (8 * n)) :
    Except Abort (SimStatus × Simulator) :=
  -- Check alignment.
  if va &&& addrAlignMask n ≠ 0 then .ok (.simUnalignedStore, sim)
  else
    -- Try to hit the cache.
    let (hit, hostAddr) := sim.writeTlb.find va
    if hit then
      match hostAddr with
      | none => .error .invalidPointer
      | some hostAddr =>
        if valid : sim.physMemory.ValidPtr hostAddr n then
          .ok (.ok, { sim with physMemory := sim.physMemory.store hostAddr value valid })
        else .error .invalidPointer
    else
      -- Translate the virtual address to a physical one.
      match sim.translateVa .write va with
      | .error why => .error why
      | .ok ⟨mmuStatus, pa⟩ =>
        if mmuStatus ≠ .ok then .ok (mmuStatus, sim)
        else
          -- Write physical memory.
          let (written, physMemory) := sim.physMemory.write (n := n) pa value
          if written.status ≠ .ok then .ok (written.status, sim)
          -- Cache the translation.
          else
            .ok (.ok,
              { sim with
                physMemory := physMemory
                writeTlb := sim.writeTlb.update va written.hostPagePtr })

instance : Machine Simulator where
  core sim := sim.toCore
  setCore sim core := { sim with toCore := core }
  loadInt n sim va := sim.loadInt n .read va
  storeInt n sim va value := sim.storeInt n va value

/-- Fetch the word at the current fetch address and move the address on. -/
def fetch : VirtAddr × Simulator → Except Abort (FetchResult × VirtAddr × Simulator)
  | (currFetchAddr, sim) =>
    match sim.loadInt 4 .fetch currFetchAddr with
    | .error why => .error why
    | .ok (res, sim) => .ok (⟨res.status, res.value⟩, currFetchAddr + instrCodeSize, sim)

/-- The block at the program counter, which is fetched and decoded unless it is cached. -/
def findBb (sim : Simulator) : Except Abort (Bb × Simulator) :=
  let cachedBb := sim.bbCache.find sim.pc
  if cachedBb.virtAddr ≠ sim.pc then
    match cachedBb.update sim.pc fetch (sim.pc, sim) with
    | .error why => .error why
    | .ok (bb, _, sim) => .ok (bb, { sim with bbCache := sim.bbCache.set sim.pc bb })
  else .ok (cachedBb, sim)

/-- Call the handler of an instruction, which calls those of the next ones until one returns. -/
def dispatchFrom : List Instr → Simulator → Except Abort (SimStatus × Simulator)
  -- The instruction pointer left the block.
  | [], _ => .error .pastBlockEnd
  | instr :: rest, sim =>
    match dispatch instr.id with
    | none => .error .nullHandler
    | some handler =>
      match handler.exec sim instr with
      | .error why => .error why
      | .ok (.next, sim) => dispatchFrom rest sim
      | .ok (.ret status, sim) => .ok (status, sim)

/-- One iteration of the loop, with the status that it returns from `simulate`, if any. -/
def simulateIter (sim : Simulator) : Except Abort (Option SimStatus × Simulator) :=
  -- Fetch and decode the block.
  match sim.findBb with
  | .error why => .error why
  | .ok (cachedBb, sim) =>
    -- Execute.
    match dispatchFrom cachedBb.instrs sim with
    | .error why => .error why
    | .ok (status, sim) =>
      if status = .simExit then .ok (some .ok, sim)
      else if status ≠ .ok then .ok (some status, sim)
      else .ok (none, sim)

/-- At most the given number of iterations, with no status while the loop goes on. -/
def simulateLoop : Nat → Simulator → Except Abort (Option SimStatus × Simulator)
  | 0, sim => .ok (none, sim)
  | iterations + 1, sim =>
    match sim.simulateIter with
    | .error why => .error why
    | .ok (some status, sim) => .ok (some status, sim)
    | .ok (none, sim) => simulateLoop iterations sim

/-- The state that the loop starts in. -/
def start (sim : Simulator) (startPc : VirtAddr) : Simulator :=
  { sim with hart := { sim.hart with pc := startPc }, icount := 0 }

/-- Simulate from an address for at most the given number of iterations. -/
def simulate (sim : Simulator) (startPc : VirtAddr) (iterations : Nat) :
    Except Abort (Option SimStatus × Simulator) :=
  (sim.start startPc).simulateLoop iterations

end Simulator

end RiscvSim

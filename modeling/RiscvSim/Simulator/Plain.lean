import RiscvSim.Simulator.Step

/-! A plain interpreter: one instruction at a time, with every access translated anew. -/

namespace RiscvSim

/-- A hart and its memory, without caches. -/
structure Plain extends Core where
  physMemory : PhysMemory

/-- Call the handler of an instruction. -/
def call {σ : Type} [Machine σ] (sim : σ) (instr : Instr) : Except Abort (Flow × σ) :=
  match dispatch instr.id with
  -- The pointer of an instruction without a handler is null.
  | none => .error .nullHandler
  | some handler => handler.exec sim instr

namespace Plain

/-- Translate a virtual address in the current privilege level. -/
def translateVa (plain : Plain) (accessType : AccessType) (va : VirtAddr) :
    Except Abort TranslateResult :=
  translate plain.physMemory plain.hart.csrFile.mstatus64 plain.hart.csrFile.satp64 .user
    accessType va

/-- Read an integer of `n` bytes at a virtual address. -/
def readInt (n : Nat) (accessType : AccessType) (plain : Plain) (va : VirtAddr) :
    Except Abort (LoadResult n) :=
  match plain.translateVa accessType va with
  | .error why => .error why
  | .ok ⟨status, pa⟩ =>
    if status ≠ .ok then .ok ⟨status, 0⟩
    else
      -- The bytes are read through the same memory as by the simulator, but through no cache.
      let result := plain.physMemory.read (n := n) pa 0
      if result.status ≠ .ok then .ok ⟨result.status, 0⟩ else .ok ⟨.ok, result.dst⟩

/-- Load an integer of `n` bytes at an aligned virtual address. -/
def loadInt (n : Nat) (accessType : AccessType) (plain : Plain) (va : VirtAddr) :
    Except Abort (LoadResult n) :=
  if va &&& addrAlignMask n ≠ 0 then .ok ⟨.simUnalignedLoad, 0⟩ else plain.readInt n accessType va

/-- Store an integer of `n` bytes at an aligned virtual address. -/
def storeInt (n : Nat) (plain : Plain) (va : VirtAddr) (value : BitVec (8 * n)) :
    Except Abort (SimStatus × Plain) :=
  if va &&& addrAlignMask n ≠ 0 then .ok (.simUnalignedStore, plain)
  else
    match plain.translateVa .write va with
    | .error why => .error why
    | .ok ⟨status, pa⟩ =>
      if status ≠ .ok then .ok (status, plain)
      else
        let (written, physMemory) := plain.physMemory.write (n := n) pa value
        if written.status ≠ .ok then .ok (written.status, plain)
        else .ok (.ok, { plain with physMemory := physMemory })

instance : Machine Plain where
  core plain := plain.toCore
  setCore plain core := { plain with toCore := core }
  -- Reading changes nothing.
  loadInt n plain va := (plain.loadInt n .read va).map fun res => (res, plain)
  storeInt n plain va value := plain.storeInt n va value

/-- The instruction word at a virtual address. -/
def fetchAt (plain : Plain) (va : VirtAddr) : Except Abort FetchResult :=
  (plain.loadInt 4 .fetch va).map fun res => ⟨res.status, res.value⟩

/-- The word at a virtual address, aligned or not. -/
def fetchAnywhere (plain : Plain) (va : VirtAddr) : Except Abort FetchResult :=
  (plain.readInt 4 .fetch va).map fun res => ⟨res.status, res.value⟩

/-- Fetch, decode and execute the instruction at the program counter. -/
def stepWith (fetch : Plain → VirtAddr → Except Abort FetchResult) (plain : Plain) :
    Outcome Plain (SimResult Plain) :=
  match fetch plain plain.pc with
  | .error why => .stop (.error why)
  | .ok res =>
    if res.status ≠ .ok then .stop (.ok (res.status, plain))
    else
      match call plain (Instr.decode res.instrCode) with
      | .error why => .stop (.error why)
      | .ok (.next, plain) => .next plain
      -- Only a status that goes on leads to a next instruction.
      | .ok (.ret status, plain) => Config.ofStatus id status plain

/-- One step of the plain interpreter. -/
def step (plain : Plain) : Outcome Plain (SimResult Plain) := plain.stepWith fetchAt

end Plain

/-- The hart and the memory of a simulator. -/
def Simulator.plain (sim : Simulator) : Plain where
  toCore := sim.toCore
  physMemory := sim.physMemory

/-- The result of simulation without the caches. -/
def SimResult.plain : SimResult Simulator → SimResult Plain
  | .error why => .error why
  | .ok (status, sim) => .ok (status, sim.plain)

end RiscvSim

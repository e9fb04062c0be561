import RiscvSim.Memory.Mmu64

/-! The builder of translation tables for simple virtual memory mappings. -/

namespace RiscvSim

/-- The flags that every mapping has. -/
def defaultFlags : BitVec 8 :=
  PTEFlags.vMask ||| PTEFlags.aMask ||| PTEFlags.dMask

/-- A virtual memory mapping. -/
structure MemoryMapping where
  flags : PTEFlags
  vpn : VPN
  ppn : PPN
  /-- The default flags are set. -/
  flagged : flags.raw &&& defaultFlags = defaultFlags
  deriving DecidableEq, Repr

namespace MemoryMapping

/-- Create a mapping, adding the default flags. -/
def new (flags : PTEFlags) (vpn : VPN) (ppn : PPN) : MemoryMapping where
  flags := ⟨flags.raw ||| defaultFlags⟩
  vpn := vpn
  ppn := ppn
  flagged := by
    -- Each default flag is set by the disjunction.
    ext i bound
    simp
    grind

end MemoryMapping

/-- The builder's mode, and the region of physical pages it takes tables from. -/
structure SimpleMemoryMapper where
  mode : ModeValue
  tableRegionBegin : PPN
  currTable : PPN
  tableRegionEnd : PPN
  deriving DecidableEq, Repr

namespace SimpleMemoryMapper

/-- The address of a physical page. -/
def pageAddr (ppn : PPN) : PhysAddr := ppn * BitVec.ofNat 64 pageSize

/-- Add the given number of translation pages to RAM. -/
def addTablePages (memory : PhysMemory) (tablePpn : PPN) : Nat → Except Abort PhysMemory
  | 0 => .ok memory
  | count + 1 =>
    match memory.addRAMPage (pageAddr tablePpn) with
    | .error why => .error why
    -- A page that is there already fails the assertion.
    | .ok (fresh, memory) =>
      if fresh then addTablePages memory (tablePpn + 1) count else .error .assertion

/-- Create a builder whose root table is the first page of the region. -/
def new (memory : PhysMemory) (mode : ModeValue) (tableRegionBegin tableRegionEnd : PPN) :
    Except Abort (SimpleMemoryMapper × PhysMemory) :=
  if tableRegionBegin < tableRegionEnd then
    match addTablePages memory tableRegionBegin (tableRegionEnd - tableRegionBegin).toNat with
    | .error why => .error why
    | .ok memory => .ok (⟨mode, tableRegionBegin, tableRegionBegin + 1, tableRegionEnd⟩, memory)
  else .error .assertion

/-- Write the entries of a mapping from a table of the given level downwards. -/
def mapFrom (mapping : MemoryMapping) (va : VirtAddr) :
    (i : Nat) → (tablePpn : PhysAddr) → SimpleMemoryMapper → PhysMemory →
      SimStatus × SimpleMemoryMapper × PhysMemory
  | i, tablePpn, mapper, memory =>
    let ptePa := pteAddr tablePpn va i
    let result := memory.read (n := pteBytes) ptePa 0
    if result.status ≠ .ok then (result.status, mapper, memory)
    else if !(PTEFlags.ofPTE result.dst).v then
      match i with
      | 0 =>
        -- Add the leaf entry.
        let pte : PTE := createPTE mapping.ppn mapping.flags
        let (written, memory) := memory.write (n := pteBytes) ptePa pte
        if written.status ≠ .ok then (written.status, mapper, memory)
        else (.ok, mapper, memory)
      | i + 1 =>
        -- Add a new page table.
        if mapper.currTable = mapper.tableRegionEnd then (.mapperTableRegionEnd, mapper, memory)
        else
          let pte : PTE := createPTE mapper.currTable ⟨PTEFlags.vMask⟩
          let mapper := { mapper with currTable := mapper.currTable + 1 }
          let (written, memory) := memory.write (n := pteBytes) ptePa pte
          if written.status ≠ .ok then (written.status, mapper, memory)
          else mapFrom mapping va i (ptePpn pte) mapper memory
    else
      match i with
      -- A valid leaf entry is already set.
      | 0 => (.mapperAlreadyMapped, mapper, memory)
      | i + 1 => mapFrom mapping va i (ptePpn result.dst) mapper memory

/-- Add the entries for a mapping. -/
def map (mapper : SimpleMemoryMapper) (memory : PhysMemory) (mapping : MemoryMapping) :
    Except Abort (SimStatus × SimpleMemoryMapper × PhysMemory) :=
  -- Mappings of table region pages are forbidden.
  if mapper.tableRegionBegin ≤ mapping.ppn ∧ mapping.ppn < mapper.tableRegionEnd then
    .ok (.mapperTableRegionPageMapped, mapper, memory)
  else
    let va := mapping.vpn * BitVec.ofNat 64 pageSize
    match modeToLevels mapper.mode with
    | .error why => .error why
    | .ok levels => .ok (mapFrom mapping va (levels - 1) mapper.tableRegionBegin mapper memory)

end SimpleMemoryMapper

end RiscvSim

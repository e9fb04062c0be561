import RiscvSim.Memory.SimpleMapper

/-! The loader of ELF files into freshly mapped pages. -/

namespace RiscvSim

/-- A program header. -/
structure GElfPhdr where
  pType : BitVec 32
  pOffset : BitVec 64
  pVaddr : VirtAddr
  pFilesz : BitVec 64
  pMemsz : BitVec 64
  deriving DecidableEq, Repr

/-- The type of the segments that are loaded. -/
def ptLoad : BitVec 32 := 1

/-- An ELF file as the system and the library show it to the loader. -/
structure ElfFile where
  bytes : List (BitVec 8)
  /-- The number of bytes that the one read of the file returns, unless it fails. -/
  readNum : Option Nat
  ePhnum : BitVec 16
  /-- The program headers that the library finds, by their numbers. -/
  phdrs : List GElfPhdr
  eEntry : RegValue

/-- The buffer after a read of some bytes, which are followed by the zeros it was made of. -/
def ElfFile.elfBuf (file : ElfFile) (readNum : Nat) : List (BitVec 8) :=
  file.bytes.take readNum ++ List.replicate (file.bytes.length - readNum) 0

/-- The number of the page above the stack. -/
def defaultStackBase : VPN := 0x10000000

/-- The number of stack pages. -/
def defaultStackSize : VPN := 0x1000

/-- The number of pages for translation tables. -/
def defaultTableRegionSize : PPN := 0x10

/-- The flags of the pages that are mapped. -/
def loadFlags : PTEFlags :=
  ⟨PTEFlags.uMask ||| PTEFlags.rMask ||| PTEFlags.wMask ||| PTEFlags.xMask⟩

/-- The loader's settings, its builder of tables, and the pages that it has mapped. -/
structure ElfLoader where
  stackBase : VPN := defaultStackBase
  stackSize : VPN := defaultStackSize
  mmuMode : ModeValue := .sv39
  mapper : SimpleMemoryMapper
  /-- The next page to map. -/
  nextMapPpn : PPN
  mapping : VPN → Option PPN := fun _ => none

/-- Copy bytes behind a host pointer. -/
def PhysMemory.memcpy (memory : PhysMemory) (dst : HostPtr) (src : List (BitVec 8)) :
    Except Abort PhysMemory :=
  if valid : memory.ValidPtr dst src.length then
    .ok (memory.store dst (LittleEndian.fromBytes src.length fun i => src.getD i 0) valid)
  else .error .invalidPointer

namespace ElfLoader

/-- The result of a loop: its status unless it still goes on, the loader and the memory. -/
abbrev Result := Except Abort (Option SimStatus × ElfLoader × PhysMemory)

/-- Create a loader, with its table region at the bottom of memory. -/
def new (memory : PhysMemory) : Except Abort (ElfLoader × PhysMemory) :=
  match SimpleMemoryMapper.new memory .sv39 0 defaultTableRegionSize with
  | .error why => .error why
  | .ok (mapper, memory) => .ok ({ mapper := mapper, nextMapPpn := defaultTableRegionSize }, memory)

/-- Remember the page of a virtual page, unless one is known already. -/
def insert (loader : ElfLoader) (pageVpn : VPN) (pagePpn : PPN) : ElfLoader :=
  -- An insertion of a key that is there does nothing.
  if (loader.mapping pageVpn).isSome then loader
  else { loader with mapping := Function.update loader.mapping pageVpn (some pagePpn) }

/-- Map a virtual page to a new RAM page. -/
def mapPage (loader : ElfLoader) (memory : PhysMemory) (pageVpn : VPN) :
    Except Abort (SimStatus × ElfLoader × PhysMemory) :=
  if loader.mmuMode = .bare then
    -- Map the RAM page with the same address.
    match memory.addRAMPage (pageVpn * BitVec.ofNat 64 pageSize) with
    | .error why => .error why
    | .ok (fresh, memory) => if fresh then .ok (.ok, loader, memory) else .error .assertion
  else
    -- Allocate a new RAM page.
    let pagePpn := loader.nextMapPpn
    let loader := { loader with nextMapPpn := loader.nextMapPpn + 1 }
    match memory.addRAMPage (pagePpn * BitVec.ofNat 64 pageSize) with
    | .error why => .error why
    | .ok (fresh, memory) =>
      if fresh then
        -- Update the mapping info, and add the mapping for the guest.
        let loader := loader.insert pageVpn pagePpn
        match loader.mapper.map memory (MemoryMapping.new loadFlags pageVpn pagePpn) with
        | .error why => .error why
        | .ok (status, mapper, memory) => .ok (status, { loader with mapper := mapper }, memory)
      else .error .assertion

/-- Map the given number of stack pages upwards from one. -/
def mapStackFrom : Nat → VPN → ElfLoader → PhysMemory →
    Except Abort (SimStatus × ElfLoader × PhysMemory)
  | 0, _, loader, memory => .ok (.ok, loader, memory)
  | count + 1, currVpn, loader, memory =>
    match loader.mapPage memory currVpn with
    | .error why => .error why
    | .ok (status, loader, memory) =>
      if status ≠ .ok then .ok (status, loader, memory)
      else mapStackFrom count (currVpn + 1) loader memory

/-- Map the stack, and give the status and the initial stack pointer. -/
def mapStack (loader : ElfLoader) (memory : PhysMemory) :
    Except Abort (SimStatus × RegValue × ElfLoader × PhysMemory) :=
  let first := loader.stackBase - loader.stackSize
  -- Counting up to the base takes its distance from the first page.
  match mapStackFrom (loader.stackBase - first).toNat first loader memory with
  | .error why => .error why
  | .ok (status, loader, memory) =>
    if status ≠ .ok then .ok (status, 0, loader, memory)
    else .ok (.ok, loader.stackBase * BitVec.ofNat 64 pageSize, loader, memory)

/-- Map the pages from an address up to the end of a segment, for at most the given number of
iterations and with the given way to map one page. -/
def mapPages {σ : Type} (mapPage : VPN → σ → Except Abort (SimStatus × σ)) (segEnd : VirtAddr) :
    Nat → VirtAddr → σ → Except Abort (Option SimStatus × σ)
  | 0, _, state => .ok (none, state)
  | iterations + 1, currPageVa, state =>
    -- The comparison and the addition wrap round at the end of the address space.
    if currPageVa < segEnd then
      match mapPage (currPageVa / BitVec.ofNat 64 pageSize) state with
      | .error why => .error why
      | .ok (status, state) =>
        if status ≠ .ok then .ok (some status, state)
        else mapPages mapPage segEnd iterations (currPageVa + BitVec.ofNat 64 pageSize) state
    else .ok (some .ok, state)

/-- Map the pages of a segment, for at most the given number of iterations. -/
def mapSegment (seg : GElfPhdr) (iterations : Nat) (loader : ElfLoader) (memory : PhysMemory) :
    Result :=
  let segBase := pageBase seg.pVaddr
  let segEnd := seg.pVaddr + seg.pMemsz
  mapPages (fun pageVpn state => state.1.mapPage state.2 pageVpn) segEnd iterations segBase
    (loader, memory)

/-- Copy the bytes of a segment that lie in the page of an offset, and give their number. -/
def copyPage (loader : ElfLoader) (elfBuf : List (BitVec 8)) (seg : GElfPhdr) (offset : BitVec 64)
    (memory : PhysMemory) : Except Abort (BitVec 64 × PhysMemory) :=
  let currVa := seg.pVaddr + offset
  let currPageOffset := pageOffset currVa
  let currPageVa := currVa - currPageOffset
  match loader.mapping (currPageVa / BitVec.ofNat 64 pageSize) with
  | none => .error .assertion
  | some ppn =>
    -- The write is made for its host pointer, and clears the first four bytes of the page.
    let (written, memory) := memory.write (n := 4) (ppn * BitVec.ofNat 64 pageSize) 0
    if written.status ≠ .ok then .error .assertion
    else
      match written.hostPagePtr with
      | none => .error .assertion
      | some hostPagePtr =>
        -- The copy ends with the segment's bytes or with the page.
        let left := seg.pFilesz - offset
        let inPage := BitVec.ofNat 64 pageSize - currPageOffset
        let cpySize := if left < inPage then left else inPage
        -- The bytes are read from the buffer, which has to hold them.
        let src := (elfBuf.drop (seg.pOffset.toNat + offset.toNat)).take cpySize.toNat
        if src.length = cpySize.toNat then
          match memory.memcpy (hostPagePtr.add currPageOffset.toNat) src with
          | .error why => .error why
          | .ok memory => .ok (cpySize, memory)
        else .error .invalidPointer

/-- Copy the bytes of a segment from an offset on, for at most the given number of iterations. -/
def copySegment (loader : ElfLoader) (elfBuf : List (BitVec 8)) (seg : GElfPhdr) :
    Nat → BitVec 64 → PhysMemory → Except Abort (Option PhysMemory)
  | 0, _, _ => .ok none
  | iterations + 1, offset, memory =>
    if offset < seg.pFilesz then
      match loader.copyPage elfBuf seg offset memory with
      | .error why => .error why
      | .ok (cpySize, memory) => copySegment loader elfBuf seg iterations (offset + cpySize) memory
    else .ok (some memory)

/-- Map a segment and copy its bytes. -/
def loadSegment (iterations : Nat) (elfBuf : List (BitVec 8)) (seg : GElfPhdr)
    (loader : ElfLoader) (memory : PhysMemory) : Result :=
  match mapSegment seg iterations loader memory with
  | .error why => .error why
  -- The bytes are copied once all pages of the segment are mapped.
  | .ok (some .ok, loader, memory) =>
    match loader.copySegment elfBuf seg iterations 0 memory with
    | .error why => .error why
    | .ok none => .ok (none, loader, memory)
    | .ok (some memory) => .ok (some .ok, loader, memory)
  | .ok (other, loader, memory) => .ok (other, loader, memory)

/-- Load the segments that are to be loaded, under as many headers as are given. -/
def loadSegments (iterations : Nat) (elfBuf : List (BitVec 8)) :
    Nat → List GElfPhdr → ElfLoader → PhysMemory → Result
  | 0, _, loader, memory => .ok (some .ok, loader, memory)
  -- The library finds no header with the number.
  | _ + 1, [], _, _ => .error .assertion
  | count + 1, seg :: rest, loader, memory =>
    if seg.pType = ptLoad then
      match loadSegment iterations elfBuf seg loader memory with
      | .error why => .error why
      -- The next segment starts only after this one was loaded.
      | .ok (some .ok, loader, memory) => loadSegments iterations elfBuf count rest loader memory
      | .ok (other, loader, memory) => .ok (other, loader, memory)
    else loadSegments iterations elfBuf count rest loader memory

/-- The result of loading: a status and the address to start from. -/
structure LoadElfRes where
  status : SimStatus := .ok
  startPc : RegValue := 0
  deriving DecidableEq, Repr

/-- Load a file, with no result while a loop takes more than the given number of iterations. -/
def loadElf (iterations : Nat) (loader : ElfLoader) (memory : PhysMemory) (file : ElfFile) :
    Except Abort (Option LoadElfRes × ElfLoader × PhysMemory) :=
  match file.readNum with
  | none => .error .assertion
  -- A read of fewer bytes than the file has passes as well.
  | some readNum =>
    match loadSegments iterations (file.elfBuf readNum) file.ePhnum.toNat file.phdrs loader
      memory with
    | .error why => .error why
    | .ok (none, loader, memory) => .ok (none, loader, memory)
    | .ok (some .ok, loader, memory) => .ok (some ⟨.ok, file.eEntry⟩, loader, memory)
    | .ok (some status, loader, memory) => .ok (some ⟨status, 0⟩, loader, memory)

end ElfLoader

end RiscvSim

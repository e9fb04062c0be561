import RiscvSim.Csr
import RiscvSim.Memory.Pte
import RiscvSim.Memory.PhysMemory

/-! The translation of virtual addresses in 64-bit mode. -/

namespace RiscvSim

/-- The kinds of memory access. -/
inductive AccessType where
  | read
  | write
  | fetch
  deriving DecidableEq, Repr

/-- The step between the page number fields of a virtual address. -/
def vpnBitStep : Nat := 9

/-- The step between the page number fields of an entry. -/
def ppnBitStep : Nat := 9

/-- The size of a page table entry in bytes. -/
abbrev pteBytes : Nat := 8

/-- The number of translation levels of a mode. -/
def modeToLevels : ModeValue → Except Abort Nat
  | .sv39 => .ok 3
  | .sv48 => .ok 4
  | .sv57 => .ok 5
  | .bare => .error .assertion

/-- Get the given page number field of a virtual address. -/
def getVPN (va : VirtAddr) (i : Nat) : BitVec 64 :=
  let lo := pageBitSize + i * vpnBitStep
  let hi := lo + vpnBitStep - 1
  getBitField hi lo va

/-- Check the flags of a leaf entry. -/
def checkLeafFlags (privLevel : PrivLevel) (accessType : AccessType) (flags : PTEFlags)
    (mxr sum : Bool) : Bool :=
  let isUser := privLevel = .user
  -- The supervisor reaches pages of the user with SUM only, and never runs code there.
  let userOk := flags.u && isUser
  let superRwOk := !isUser && (!flags.u || sum)
  let superXOk := !isUser && !flags.u
  match accessType with
  | .read =>
    let isReadable := flags.r || (flags.x && mxr)
    isReadable && (userOk || superRwOk)
  | .write => flags.w && (userOk || superRwOk)
  | .fetch => flags.x && (userOk || superXOk)

/-- Calculate the resulting physical address. -/
def calcPhysAddr (pte : PTE) (va : VirtAddr) (i : Nat) : PhysAddr :=
  -- The offset of a superpage takes in the page number fields below its level.
  let superPageBits := i * ppnBitStep
  let ppnLo := ptePpnLo + superPageBits
  let offsetBits := pageBitSize + superPageBits
  let offset := getBitField (offsetBits - 1) 0 va
  let ppn := getBitField ptePpnHi ppnLo pte
  offset + (ppn <<< offsetBits)

/-- The physical address of the entry of a table that a virtual address selects. -/
def pteAddr (tablePpn : PhysAddr) (va : VirtAddr) (i : Nat) : PhysAddr :=
  tablePpn * BitVec.ofNat 64 pageSize + getVPN va i * BitVec.ofNat 64 pteBytes

/-- The page number field of an entry. -/
def ptePpn (pte : PTE) : PhysAddr :=
  getBitField ptePpnHi ptePpnLo pte

/-- How a page table walk ends. -/
inductive WalkResult where
  /-- A status is returned at once. -/
  | fault (status : SimStatus)
  /-- A leaf entry was found at a level. -/
  | leaf (i : Nat) (pte : PTE)
  deriving DecidableEq, Repr

/-- The entry is invalid, or its flags or reserved bits make no sense. -/
def pteMalformed (pte : PTE) : Bool :=
  let flags := PTEFlags.ofPTE pte
  !flags.v || (!flags.r && flags.w) || pte &&& pteReservedMask ≠ 0

/-- The entry is a leaf. -/
def pteIsLeaf (pte : PTE) : Bool :=
  let flags := PTEFlags.ofPTE pte
  flags.r || flags.x

/-- Walk the page tables from a table of the given level downwards. -/
def walk (memory : PhysMemory) (va : VirtAddr) : (i : Nat) → (tablePpn : PhysAddr) → WalkResult
  | i, tablePpn =>
    let result := memory.read (n := pteBytes) (pteAddr tablePpn va i) 0
    -- The status of a read that fails is returned as it is.
    if result.status ≠ .ok then .fault result.status
    else if pteMalformed result.dst then .fault .mmu64PageFault
    else if pteIsLeaf result.dst then .leaf i result.dst
    else
      match i with
      | 0 => .fault .mmu64PageFault
      -- Any other entry links the next table, which the last level must not do.
      | i + 1 => walk memory va i (ptePpn result.dst)

/-- The result of a translation. -/
structure TranslateResult where
  status : SimStatus
  physAddr : PhysAddr
  deriving DecidableEq, Repr

/-- Translate a virtual address. -/
def translate (memory : PhysMemory) (mstatus64 : MSTATUS64) (satp64 : SATP64)
    (privLevel : PrivLevel) (accessType : AccessType) (va : VirtAddr) :
    Except Abort TranslateResult :=
  if satp64.mode = .bare then .ok ⟨.ok, va⟩
  else
    match modeToLevels satp64.mode with
    | .error why => .error why
    | .ok levels =>
      match walk memory va (levels - 1) satp64.ppn with
      | .fault status => .ok ⟨status, 0⟩
      | .leaf i pte =>
        let flags := PTEFlags.ofPTE pte
        -- Check if the access is allowed.
        if !checkLeafFlags privLevel accessType flags (mstatus64.mxr ≠ 0) (mstatus64.sum ≠ 0) then
          .ok ⟨.mmu64PageFault, 0⟩
        -- Check superpage alignment.
        else if 0 < i ∧ getBitField (ptePpnLo + ppnBitStep * i - 1) ptePpnLo pte ≠ 0 then
          .ok ⟨.mmu64PageFault, 0⟩
        -- The accessed and dirty bits are expected to be set.
        else if !(flags.d && flags.a) then .error .assertion
        else .ok ⟨.ok, calcPhysAddr pte va i⟩

end RiscvSim

import RiscvSim.Memory.PhysMemory

/-! The direct-mapped cache of host pages by virtual page. -/

namespace RiscvSim

/-- The binary logarithm of the number of entries. -/
def tlbSizeLog2 : Nat := 7

/-- The number of entries. -/
def tlbSize : Nat := 2 ^ tlbSizeLog2

/-- An address that marks an entry as empty. -/
def poisonVa : VirtAddr := 1 <<< 56

/-- An entry: a virtual page and the host page behind it. -/
structure TLBEntry where
  /-- The host page, or nothing for the null pointer. -/
  host : Option HostPtr := none
  virtAddr : VirtAddr := poisonVa
  deriving DecidableEq, Repr

/-- A translation cache. -/
structure TLB where
  entries : Fin tlbSize → TLBEntry := fun _ => {}

namespace TLB

/-- The position of the entry for an address, which is a field of `tlbSizeLog2` bits. -/
def index (virtAddr : VirtAddr) : Fin tlbSize :=
  ⟨(getBitField (pageBitSize + tlbSizeLog2 - 1) pageBitSize virtAddr).toNat, by
    -- The field has as many bits as the positions need.
    rw [toNat_getBitField _ (by decide) (by decide) (by decide)]
    exact Nat.mod_lt _ (by decide)⟩

/-- The entry for an address. -/
def getEntry (tlb : TLB) (virtAddr : VirtAddr) : TLBEntry :=
  tlb.entries (index virtAddr)

/-- Forget every translation. -/
def invalidate (tlb : TLB) : TLB where
  -- The host pages stay behind as stale values.
  entries := fun i => { tlb.entries i with virtAddr := poisonVa }

/-- Whether the page of an address is cached, and the host address that its entry gives. -/
def find (tlb : TLB) (virtAddr : VirtAddr) : Bool × Option HostPtr :=
  let e := tlb.getEntry virtAddr
  (pageBase virtAddr == e.virtAddr, e.host.map fun host => host.add (pageOffset virtAddr).toNat)

/-- Cache the host page of an address. -/
def update (tlb : TLB) (virtAddr : VirtAddr) (hostPagePtr : Option HostPtr) : TLB where
  entries := Function.update tlb.entries (index virtAddr)
    ⟨hostPagePtr, virtAddr - pageOffset virtAddr⟩

end TLB

end RiscvSim

import RiscvSim.Lib.ByteStore
import RiscvSim.Simulator.Plain

/-! An interpreter whose memory is one address space, without translation tables. -/

namespace RiscvSim

/-- A hart and its address space. -/
structure Flat (w : Nat) extends Core where
  /-- The status that an access to an address fails with, if it does. -/
  denial : AccessType → BitVec w → Option SimStatus
  bytes : ByteStore w

namespace Flat

variable {w : Nat}

/-- Load an integer of `n` bytes, of which the low bits of the address select the first. -/
def load (n : Nat) (accessType : AccessType) (flat : Flat w) (va : VirtAddr) : LoadResult n :=
  if va &&& addrAlignMask n ≠ 0 then ⟨.simUnalignedLoad, 0⟩
  else
    match flat.denial accessType (va.setWidth w) with
    | some status => ⟨status, 0⟩
    | none => ⟨.ok, flat.bytes.get n (va.setWidth w)⟩

/-- Store an integer of `n` bytes. -/
def store (n : Nat) (flat : Flat w) (va : VirtAddr) (value : BitVec (8 * n)) :
    SimStatus × Flat w :=
  if va &&& addrAlignMask n ≠ 0 then (.simUnalignedStore, flat)
  else
    match flat.denial .write (va.setWidth w) with
    | some status => (status, flat)
    | none => (.ok, { flat with bytes := flat.bytes.put (va.setWidth w) value })

instance : Machine (Flat w) where
  core flat := flat.toCore
  setCore flat core := { flat with toCore := core }
  loadInt n flat va := .ok (flat.load n .read va, flat)
  storeInt n flat va value := .ok (flat.store n va value)

/-- The instruction word at a virtual address. -/
def fetchAt (flat : Flat w) (va : VirtAddr) : Except Abort FetchResult :=
  .ok ⟨(flat.load 4 .fetch va).status, (flat.load 4 .fetch va).value⟩

/-- Fetch, decode and execute the instruction at the program counter. -/
def step (flat : Flat w) : Outcome (Flat w) (SimResult (Flat w)) :=
  match flat.fetchAt flat.pc with
  | .error why => .stop (.error why)
  | .ok res =>
    if res.status ≠ .ok then .stop (.ok (res.status, flat))
    else
      match call flat (Instr.decode res.instrCode) with
      | .error why => .stop (.error why)
      | .ok (.next, flat) => .next flat
      | .ok (.ret status, flat) => Config.ofStatus id status flat

end Flat

end RiscvSim

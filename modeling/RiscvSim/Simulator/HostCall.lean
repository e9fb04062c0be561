import RiscvSim.Simulator.Simulator

/-! What a host does with a simulator besides simulation. -/

namespace RiscvSim

/-- An operation of the host on the parts of a simulator that it is given. -/
inductive HostCall where
  | setSatp64 (value : SATP64)
  | setMstatus64 (value : MSTATUS64)
  | writeCsr (idx : CSRIdx) (value : RawValue)
  | writeGpr (idx : BitVec 8) (value : RegValue)
  | writeMemory (n : Nat) (physAddr : PhysAddr) (value : BitVec (8 * n))
  | addRAMPage (page : PhysAddr)

namespace HostCall

/-- Replace the control registers of a simulator. -/
def setCsrFile (sim : Simulator) (csrFile : CSRFile) : Simulator :=
  { sim with hart := { sim.hart with csrFile := csrFile } }

/-- Perform an operation, which changes no cache. -/
def exec (sim : Simulator) : HostCall → Except Abort Simulator
  | setSatp64 value => .ok (setCsrFile sim (sim.hart.csrFile.setSatp64 value))
  | setMstatus64 value => .ok (setCsrFile sim (sim.hart.csrFile.setMstatus64 value))
  | writeCsr idx value => .ok (setCsrFile sim (sim.hart.csrFile.write idx value).2)
  | writeGpr idx value =>
    match sim.hart.gprFile.write idx value with
    | .error why => .error why
    | .ok gprFile => .ok { sim with hart := { sim.hart with gprFile := gprFile } }
  -- The result of the write is dropped, as it may have changed nothing.
  | writeMemory _ physAddr value =>
    .ok { sim with physMemory := (sim.physMemory.write physAddr value).2 }
  | addRAMPage page =>
    match sim.physMemory.addRAMPage page with
    | .error why => .error why
    | .ok (_, physMemory) => .ok { sim with physMemory := physMemory }

end HostCall

end RiscvSim

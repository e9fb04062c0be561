import RiscvSim.Csr
import Mathlib.Logic.Function.Basic

/-! The architectural state of a hart: program counter, general purpose and control registers. -/

namespace RiscvSim

/-- The number of general purpose registers. -/
def gprNumber : Nat := 32

/-- The general purpose registers. -/
structure GPRFile where
  gpr : Fin gprNumber → RegValue
  /-- Register zero holds zero. -/
  zero : gpr ⟨0, by decide⟩ = 0

namespace GPRFile

/-- All registers are zero at first. -/
def new : GPRFile where
  gpr := fun _ => 0
  zero := rfl

/-- Write a register, and then zero to register zero. -/
def write (file : GPRFile) (idx : BitVec 8) (value : RegValue) : Except Abort GPRFile :=
  if inside : idx.toNat < gprNumber then
    -- The source writes register zero like any other and clears it at the end.
    .ok
      { gpr := Function.update (Function.update file.gpr ⟨idx.toNat, inside⟩ value) ⟨0, by decide⟩ 0
        zero := Function.update_self _ _ _ }
  else .error .assertion

/-- Read a register. -/
def read (file : GPRFile) (idx : BitVec 8) : Except Abort RegValue :=
  if inside : idx.toNat < gprNumber then .ok (file.gpr ⟨idx.toNat, inside⟩) else .error .assertion

end GPRFile

/-- A hart. -/
structure Hart where
  pc : VirtAddr := 0
  gprFile : GPRFile := GPRFile.new
  csrFile : CSRFile := {}

end RiscvSim

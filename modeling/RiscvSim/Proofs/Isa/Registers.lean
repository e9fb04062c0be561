import RiscvSim.Lib.Rv64i
import RiscvSim.Proofs.Simulator.Dispatch

/-! The registers of a hart as those of the instruction set, and what handlers do with them. -/

namespace RiscvSim

open Rv64i (RegIdx Registers Word)

namespace GPRFile

/-- The registers of a file by their five-bit numbers. -/
def regs (file : GPRFile) : Registers where
  value idx := file.gpr idx.toFin
  zero := file.zero

/-- The file with given registers. -/
def ofRegs (regs : Registers) : GPRFile where
  gpr idx := regs.value (BitVec.ofFin idx)
  zero := regs.zero

/-- A file is made of its registers. -/
@[simp] theorem ofRegs_regs (file : GPRFile) : ofRegs file.regs = file := rfl

/-- Files with the same registers are the same. -/
theorem regs_inj {left right : GPRFile} (same : left.regs = right.regs) : left = right := by
  -- Both are made of these registers.
  rw [← ofRegs_regs left, same, ofRegs_regs]

/-- Reading a register by a widened five-bit number gives its word. -/
theorem read_setWidth (file : GPRFile) (idx : RegIdx) :
    file.read (idx.setWidth 8) = .ok (file.regs.value idx) := by
  -- Five bits stay below the number of registers.
  have inside : (idx.setWidth 8).toNat = idx.toNat := by
    rw [BitVec.toNat_setWidth, Nat.mod_eq_of_lt (by have := idx.isLt; omega)]
  unfold read
  rw [dif_pos (by rw [inside]; exact idx.isLt)]
  simp only [inside]
  rfl

/-- Writing a register by a widened five-bit number writes it as the instruction set does. -/
theorem write_setWidth (file : GPRFile) (rd : RegIdx) (word : Word) :
    file.write (rd.setWidth 8) word = .ok (ofRegs (file.regs.write rd word)) := by
  have inside : (rd.setWidth 8).toNat = rd.toNat := by
    rw [BitVec.toNat_setWidth, Nat.mod_eq_of_lt (by have := rd.isLt; omega)]
  unfold write
  rw [dif_pos (by rw [inside]; exact rd.isLt)]
  refine congrArg Except.ok (regs_inj ?_)
  apply Registers.ext
  intro idx
  -- Register zero is cleared after the write, and the others are written by their number.
  have number (other : RegIdx) : idx = other ↔ idx.toFin = other.toFin :=
    ⟨congrArg BitVec.toFin, BitVec.eq_of_toFin_eq⟩
  simp only [regs, Registers.write, number, ofRegs, inside]
  have outer := Function.update_apply (Function.update file.gpr (rd.toFin : Fin gprNumber) word)
    ⟨0, by decide⟩ 0 (idx.toFin : Fin gprNumber)
  have inner := Function.update_apply file.gpr (rd.toFin : Fin gprNumber) word
    (idx.toFin : Fin gprNumber)
  exact outer.trans (congrArg (fun value => if idx.toFin = BitVec.toFin 0 then 0 else value) inner)

end GPRFile

namespace Core

/-- The registers of the hart. -/
def regs (core : Core) : Registers := core.hart.gprFile.regs

/-- Retire an instruction that leaves given registers and goes on at an address. -/
def retire (core : Core) (regs : Registers) (pc : VirtAddr) : Core where
  hart := { core.hart with gprFile := GPRFile.ofRegs regs, pc := pc }
  icount := core.icount + 1

/-- Reading a register gives its word. -/
@[simp] theorem read_setWidth (core : Core) (idx : RegIdx) :
    core.read (idx.setWidth 8) = .ok (core.regs.value idx) :=
  core.hart.gprFile.read_setWidth idx

/-- Writing a register and jumping retires the instruction. -/
theorem write_jumpTo (core : Core) (rd : RegIdx) (word : Word) (pc : VirtAddr) :
    ∃ written, core.write (rd.setWidth 8) word = .ok written ∧
      written.jumpTo pc = core.retire (core.regs.write rd word) pc ∧ written.pc = core.pc := by
  let written := GPRFile.ofRegs (core.regs.write rd word)
  refine ⟨{ core with hart := { core.hart with gprFile := written } }, ?_, rfl, rfl⟩
  -- The file is replaced, and nothing else is touched.
  simp only [write, GPRFile.write_setWidth]
  rfl

end Core

/-- Retire an instruction that leaves given registers and goes on at an address. -/
def Machine.retire {σ : Type} [Machine σ] (sim : σ) (regs : Registers) (pc : VirtAddr) : σ :=
  setCore sim ((core sim).retire regs pc)

end RiscvSim

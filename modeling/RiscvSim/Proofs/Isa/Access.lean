import RiscvSim.Proofs.Isa.Compute

/-! Loads and stores access the effective address that the instruction set prescribes. -/

namespace RiscvSim

open Rv64i

/-- The table gives a load the handler of its size and extension. -/
theorem dispatch_load (load : Load) :
    dispatch (.ofLoad load) = some (.load load.bytes load.extend) := by
  cases load <;> rfl

/-- The table gives a store the handler of its size. -/
theorem dispatch_store (store : Store) : dispatch (.ofStore store) = some (.store store.bytes) := by
  cases store <;> rfl

namespace Simulator

/-- Load from an address, and write the extended value to a register on success. -/
def loaded (sim : Simulator) (load : Load) (rd : RegIdx) (va : VirtAddr) :
    Except Abort (Flow × Simulator) :=
  match sim.loadInt load.bytes .read va with
  | .error why => .error why
  | .ok (res, sim) =>
    if res.status ≠ .ok then .ok (.ret res.status, sim)
    else .ok (.next, sim.retire (sim.regs.write rd (load.extend res.value)) (sim.pc + 4))

/-- Store the low bytes of a word to an address. -/
def stored (sim : Simulator) (store : Store) (word : Word) (va : VirtAddr) :
    Except Abort (Flow × Simulator) :=
  match sim.storeInt store.bytes va (word.setWidth (8 * store.bytes)) with
  | .error why => .error why
  | .ok (status, sim) =>
    if status ≠ .ok then .ok (.ret status, sim) else .ok (.next, sim.retire sim.regs (sim.pc + 4))

/-- A load accesses the sum of its base register and its immediate. -/
theorem call_load (sim : Simulator) {instr : Instr} {load : Load} {rd rs1 : RegIdx}
    {imm : BitVec 12} (decoded : instr.Represents (.load load rd rs1 imm)) :
    call sim instr = sim.loaded load rd (sim.regs.value rs1 + imm.signExtend 64) := by
  obtain ⟨id, dest, first, value⟩ := decoded
  have readFirst : (Machine.core sim).read instr.rs1 = .ok (sim.regs.value rs1) := by
    rw [first]
    exact sim.toCore.read_setWidth rs1
  rw [call, id, dispatch_load]
  simp only [Handler.exec, simLoadInstr, readFirst, Instr.signedImm_eq (by decide) value]
  rw [show Machine.loadInt load.bytes sim (sim.regs.value rs1 + imm.signExtend 64) =
    sim.loadInt load.bytes .read (sim.regs.value rs1 + imm.signExtend 64) from rfl, loaded]
  cases sim.loadInt load.bytes .read (sim.regs.value rs1 + imm.signExtend 64) with
  | error why => rfl
  | ok result =>
    obtain ⟨res, sim⟩ := result
    by_cases failed : res.status ≠ .ok
    · simp only [if_pos failed]
    · -- The destination is written in the state after the access.
      obtain ⟨written, write, jumped, pc⟩ :=
        sim.toCore.write_jumpTo rd (load.extend res.value) (sim.pc + 4)
      have stored : (Machine.core sim).write instr.rd (load.extend res.value) = .ok written :=
        dest ▸ write
      have moved : written.incr =
          sim.toCore.retire (sim.regs.write rd (load.extend res.value)) (sim.pc + 4) := by
        rw [Core.incr, pc]
        exact jumped
      simp only [if_neg failed, stored, moved]
      rfl

/-- A store accesses the sum of its base register and its immediate. -/
theorem call_store (sim : Simulator) {instr : Instr} {store : Store} {rs1 rs2 : RegIdx}
    {imm : BitVec 12} (decoded : instr.Represents (.store store rs1 rs2 imm)) :
    call sim instr =
      sim.stored store (sim.regs.value rs2) (sim.regs.value rs1 + imm.signExtend 64) := by
  obtain ⟨id, first, second, value⟩ := decoded
  have readFirst : (Machine.core sim).read instr.rs1 = .ok (sim.regs.value rs1) := by
    rw [first]
    exact sim.toCore.read_setWidth rs1
  have readSecond : (Machine.core sim).read instr.rs2 = .ok (sim.regs.value rs2) := by
    rw [second]
    exact sim.toCore.read_setWidth rs2
  -- No register is written, so retiring only moves the program counter.
  rw [call, id, dispatch_store]
  simp only [Handler.exec, simStoreInstr, readFirst, readSecond,
    Instr.signedImm_eq (by decide) value]
  rw [show ∀ va word, Machine.storeInt store.bytes sim va word = sim.storeInt store.bytes va word
    from fun _ _ => rfl, stored]
  cases sim.storeInt store.bytes (sim.regs.value rs1 + imm.signExtend 64)
      ((sim.regs.value rs2).setWidth (8 * store.bytes)) with
  | error why => rfl
  | ok result => rfl

end Simulator

end RiscvSim

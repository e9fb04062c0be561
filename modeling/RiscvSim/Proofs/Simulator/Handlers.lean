import RiscvSim.Simulator.Dispatch

/-! What every instruction handler has in common, on any machine. -/

namespace RiscvSim

open Machine

/-- An address fails the check for jumps exactly when it is not a multiple of four. -/
theorem pcAlignMask_iff (address : VirtAddr) :
    address &&& pcAlignMask ≠ 0 ↔ address.toNat % 4 ≠ 0 := by
  -- The mask keeps the two lowest bits, which are the remainder.
  have low : (address &&& pcAlignMask).toNat = address.toNat % 4 :=
    Bits.toNat_and_lowMask address 2 (by decide)
  rw [← low]
  exact not_congr ⟨congrArg BitVec.toNat, fun zero => BitVec.eq_of_toNat_eq zero⟩

/-- The address of the memory access of an instruction. -/
def Handler.dataVa (handler : Handler) (core : Core) (instr : Instr) : Option VirtAddr :=
  match handler, core.read instr.rs1 with
  | .load _ _, .ok vaBase => some (vaBase + instr.signedImm)
  | .store _, .ok vaBase => some (vaBase + instr.signedImm)
  | _, _ => none

/-- The sizes of memory accesses. -/
def AccessSize (n : Nat) : Prop := n = 1 ∨ n = 2 ∨ n = 4 ∨ n = 8

/-- A handler that accesses memory does so in one of these sizes. -/
def Handler.Sized : Handler → Prop
  | .load n _ => AccessSize n
  | .store n => AccessSize n
  | _ => True

/-- Handlers access memory in units of a machine word or a power of two below. -/
theorem simInstr_sized {id : InstrId} {handler : Handler} (found : simInstr id = some handler) :
    handler.Sized := by
  -- Each handler of the table states its own size.
  unfold simInstr at found
  split at found <;> cases found <;>
    first
    | exact trivial
    | exact .inl rfl
    | exact .inr (.inl rfl)
    | exact .inr (.inr (.inl rfl))
    | exact .inr (.inr (.inr rfl))

/-- A handler of the dispatch table is one that is written for some instruction. -/
theorem dispatch_sized {id : InstrId} {handler : Handler} (found : dispatch id = some handler) :
    handler.Sized := by
  -- A place of the table holds a handler or a null pointer.
  unfold dispatch at found
  split at found
  · exact simInstr_sized found
  · cases found

/-- Results that agree: with the same value and related states, or with the same abort.

The first result may also be an abort that is excused.
-/
inductive Lifted {σ τ α : Type} (related : σ → τ → Prop) (excused : Abort → Prop) :
    Except Abort (α × σ) → Except Abort (α × τ) → Prop where
  | ok {value : α} {left : σ} {right : τ} :
    related left right → Lifted related excused (.ok (value, left)) (.ok (value, right))
  | error (why : Abort) : Lifted related excused (.error why) (.error why)
  | excused {why : Abort} (right : Except Abort (α × τ)) :
    excused why → Lifted related excused (.error why) right

/-- A result without an abort agrees with one on the other side. -/
theorem Lifted.of_ok {σ τ α : Type} {related : σ → τ → Prop} {excused : Abort → Prop} {value : α}
    {left : σ} {other : Except Abort (α × τ)}
    (lifted : Lifted related excused (.ok (value, left)) other) :
    ∃ right, other = .ok (value, right) ∧ related left right := by
  cases lifted with
  | ok kept => exact ⟨_, rfl, kept⟩

/-- Writing a general purpose register changes the register file alone. -/
theorem Core.write_frame {core written : Core} {idx : BitVec 8} {value : RegValue}
    (result : core.write idx value = .ok written) :
    ∃ gprFile, written = { core with hart := { core.hart with gprFile := gprFile } } := by
  unfold Core.write at result
  -- A write that is refused has no result.
  split at result <;> cases result
  exact ⟨_, rfl⟩

/-- Writing a general purpose register keeps the control registers. -/
theorem Core.write_csrFile {core written : Core} {idx : BitVec 8} {value : RegValue}
    (result : core.write idx value = .ok written) :
    written.hart.csrFile = core.hart.csrFile := by
  obtain ⟨gprFile, rfl⟩ := Core.write_frame result
  rfl

section exec

variable {σ τ : Type} [Machine σ] [Machine τ]

/-- A relation of states with the same core, which may be replaced on both sides.

Only the control registers have to be kept.
-/
structure SameCore (related : σ → τ → Prop) : Prop where
  core : ∀ {left right}, related left right → core left = core right
  setCore : ∀ {left right}, related left right → ∀ replaced : Core,
    replaced.hart.csrFile = (Machine.core right).hart.csrFile →
      related (setCore left replaced) (setCore right replaced)

variable {related : σ → τ → Prop} {excused : Abort → Prop}

/-- Handlers do the same on related states, when memory accesses do. -/
theorem Handler.exec_lifted (same : SameCore related) (handler : Handler) (instr : Instr)
    {left : σ} {right : τ} (start : related left right)
    (loads : ∀ n widen va, handler = .load n widen → handler.dataVa (core left) instr = some va →
      Lifted related excused (loadInt n left va) (loadInt n right va))
    (stores : ∀ n va value, handler = .store n → handler.dataVa (core left) instr = some va →
      Lifted related excused (storeInt n left va value) (storeInt n right va value)) :
    Lifted related excused (handler.exec left instr) (handler.exec right instr) := by
  have cores := same.core start
  -- One case for each shape of handler.
  cases handler with
  | status =>
    -- The status is stored in the instruction, so neither state matters.
    simp only [exec]
    cases instr.status with
    | error why => exact .error why
    | ok code => exact .ok start
  | exit =>
    simp only [exec, cores]
    exact .ok (same.setCore start _ rfl)
  | compute res =>
    -- The result is computed from the core, which both states share.
    simp only [exec, simCompute, cores]
    cases res (core right) instr with
    | error why => exact .error why
    | ok value =>
      dsimp only
      cases write : (core right).write instr.rd value with
      | error why => exact .error why
      | ok written => exact .ok (same.setCore start _ (Core.write_csrFile write :))
  | load n widen =>
    simp only [exec, simLoadInstr, cores]
    cases base : (core right).read instr.rs1 with
    | error why => exact .error why
    | ok vaBase =>
      dsimp only
      have loaded := loads n widen (vaBase + instr.signedImm) rfl
        (by simp only [dataVa, cores, base])
      -- From here on only the agreement of the two loads matters.
      generalize loadInt n left (vaBase + instr.signedImm) = first at loaded ⊢
      generalize loadInt n right (vaBase + instr.signedImm) = second at loaded ⊢
      cases loaded with
      | error why => exact .error why
      | excused _ fine => exact .excused _ fine
      | @ok res loadedLeft loadedRight after =>
        -- A failed load changes nothing else, and another one writes its register on both sides.
        simp only [same.core after]
        split
        · exact .ok after
        · cases write : (core loadedRight).write instr.rd (widen res.value) with
          | error why => exact .error why
          | ok written => exact .ok (same.setCore after _ (Core.write_csrFile write :))
  | store n =>
    simp only [exec, simStoreInstr, cores]
    cases base : (core right).read instr.rs1 with
    | error why => exact .error why
    | ok vaBase =>
      dsimp only
      -- The address and the value both come from the core.
      cases (core right).read instr.rs2 with
      | error why => exact .error why
      | ok value =>
        dsimp only
        have stored := stores n (vaBase + instr.signedImm) (value.setWidth (8 * n)) rfl
          (by simp only [dataVa, cores, base])
        generalize storeInt n left (vaBase + instr.signedImm) (value.setWidth (8 * n)) = first
          at stored ⊢
        generalize storeInt n right (vaBase + instr.signedImm) (value.setWidth (8 * n)) = second
          at stored ⊢
        cases stored with
        | error why => exact .error why
        | excused _ fine => exact .excused _ fine
        | @ok status storedLeft storedRight after =>
          -- A failed store changes nothing else, and another one retires on both sides.
          simp only [same.core after]
          split
          · exact .ok after
          · exact .ok (same.setCore after _ rfl)
  | jump newPc =>
    simp only [exec, simJump, cores]
    cases newPc (core right) instr with
    | error why => exact .error why
    | ok target =>
      -- The target is checked on both sides, and then linked in the same register.
      dsimp only
      split
      · exact .ok start
      · cases write : (core right).write instr.rd ((core right).pc + 4) with
        | error why => exact .error why
        | ok written => exact .ok (same.setCore start _ (Core.write_csrFile write :))
  | branch cmp =>
    simp only [exec, simCondBranch, cores]
    cases (core right).read instr.rs1 with
    | error why => exact .error why
    | ok rs1 =>
      dsimp only
      cases (core right).read instr.rs2 with
      | error why => exact .error why
      | ok rs2 =>
        -- The branch is taken on both sides or on neither.
        dsimp only
        split
        · split
          · exact .ok start
          · exact .ok (same.setCore start _ rfl)
        · exact .ok (same.setCore start _ rfl)

end exec

end RiscvSim

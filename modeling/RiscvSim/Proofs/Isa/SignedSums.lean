import RiscvSim.Simulator.Sums
import RiscvSim.Proofs.Simulator.Handlers
import RiscvSim.Proofs.Isa.Registers

/-! Which handlers may overflow a signed type, and for which operands. -/

namespace RiscvSim

open CArith

/-- What a handler writes, or the address it accesses, or the target it goes to. -/
def Handler.Makes (handler : Handler) (core : Core) (instr : Instr) (value : RegValue) : Prop :=
  match handler with
  | .compute res => res core instr = .ok value
  | .load _ _ | .store _ => handler.dataVa core instr = some value
  | .jump newPc => newPc core instr = .ok value
  | .branch _ => core.pc + instr.signedImm = value
  | _ => False

section bits

variable {core : Core} {instr : Instr} {type : IntType} {value : Value} {idx : BitVec 8}

/-- A register that was read as a type keeps the bits of the type. -/
theorem readAs_ok (read : core.readAs type idx = .ok value) :
    ∃ reg, core.read idx = .ok reg ∧ value.type = type ∧
      (type.width = 64 → valueToReg value = reg) ∧
      BitVec.ofInt 32 value.number = reg.setWidth 32 := by
  unfold Core.readAs at read
  cases result : core.read idx with
  | error why =>
    rw [result] at read
    cases read
  | ok reg =>
    rw [result] at read
    cases read
    refine ⟨reg, rfl, rfl, fun wide => ?_, ?_⟩
    · -- A register has 64 bits, so a type of that width reads all of them.
      rw [valueToReg, IntType.ofInt_cast (Nat.le_of_eq wide.symm), BitVec.ofInt_natCast,
        BitVec.ofNat_toNat, BitVec.setWidth_eq]
    · have narrow : 32 ≤ type.width := by cases type <;> simp [IntType.width]
      rw [IntType.ofInt_cast narrow, BitVec.ofInt_natCast, BitVec.ofNat_toNat]

/-- The program counter as a value has its bits. -/
theorem valueToReg_pcValue (core : Core) : valueToReg core.pcValue = core.pc := by
  rw [valueToReg, Core.pcValue, IntType.ofInt_cast (Nat.le_refl 64),
    BitVec.ofInt_natCast, BitVec.ofNat_toNat, BitVec.setWidth_eq]

/-- The immediate is stored as it is. -/
theorem immValue_number (instr : Instr) : instr.immValue.number = instr.imm.toNat := by
  have bound := instr.imm.isLt
  -- A word without a sign is in the range of its type.
  have inRange : IntType.uint.InRange instr.imm.toNat := by
    rw [IntType.InRange]
    omega
  exact IntType.wrap_of_inRange inRange

/-- The signed word of the immediate. -/
theorem immInt_number (instr : Instr) : instr.immInt.number = instr.imm.toInt := by
  rw [Instr.immInt, Value.convert, immValue_number, BitVec.toInt_eq_toNat_bmod]
  simp only [IntType.cast, IntType.wrap, Nat.reducePow]

/-- A value whose type has 64 bits keeps them in another such type. -/
theorem valueToReg_convert (value : Value) (wide : type.width = 64) :
    valueToReg (value.convert type) = valueToReg value := by
  rw [valueToReg, Value.convert, IntType.ofInt_cast (Nat.le_of_eq wide.symm), valueToReg]

/-- The signed word of the immediate in a register. -/
theorem valueToReg_immInt (instr : Instr) : valueToReg instr.immInt = instr.signedImm := by
  rw [valueToReg, immInt_number]
  rfl

end bits

/-- A sum of two values of 64 bits, as registers. -/
theorem valueToReg_result (sum : Sum) (wide : sum.type.width = 64) :
    valueToReg sum.result = Sum.bits sum.op (valueToReg sum.left) (valueToReg sum.right) :=
  sum.ofInt_result (Nat.le_of_eq wide.symm)

/-- A signed word in a register is extended with its sign. -/
theorem valueToReg_int (number : Int) :
    valueToReg (IntType.int.cast number) = (BitVec.ofInt 32 number).signExtend 64 := by
  rw [valueToReg, BitVec.signExtend, BitVec.toInt_ofInt]
  exact congrArg (BitVec.ofInt 64) (congrArg (Int.bmod number) (show 0x100000000 = 2 ^ 32 by decide))

section makes

variable {core : Core} {instr : Instr} {sum : Sum}

/-- The operands of a sum of both registers. -/
theorem fromRegs_ok {op : Op} {type : IntType} (done : Sums.fromRegs op type core instr = .ok sum) :
    ∃ left right, core.readAs type instr.rs1 = .ok left ∧ core.readAs type instr.rs2 = .ok right ∧
      sum = ⟨op, left, right⟩ := by
  unfold Sums.fromRegs at done
  -- An operand that cannot be read makes no sum.
  cases first : core.readAs type instr.rs1 with
  | error why =>
    rw [first] at done
    cases done
  | ok left =>
    cases second : core.readAs type instr.rs2 with
    | error why =>
      rw [first, second] at done
      cases done
    | ok right =>
      rw [first, second] at done
      cases done
      exact ⟨left, right, rfl, rfl, rfl⟩

/-- The operand of a sum that is made of a register. -/
theorem read_bind_ok {type : IntType} {idx : BitVec 8} {make : Value → Sum}
    (done : (do
      let value ← core.readAs type idx
      return make value) = .ok sum) :
    ∃ value, core.readAs type idx = .ok value ∧ sum = make value := by
  cases read : core.readAs type idx with
  | error why =>
    rw [read] at done
    cases done
  | ok value =>
    rw [read] at done
    cases done
    exact ⟨value, rfl, rfl⟩

/-- Two operands of one type make a sum of that type. -/
theorem type_of_same (op : Op) {left right : Value} {type : IntType} (leftType : left.type = type)
    (rightType : right.type = type) : Sum.type ⟨op, left, right⟩ = type := by
  rw [Sum.type, leftType, rightType]
  cases type <;> rfl

/-- A sum of two registers of 64 bits is that of their bits. -/
theorem makes_fromRegs_long (op : Op) (done : Sums.fromRegs op .long core instr = .ok sum) :
    (SimInstr.fromRegs (Sum.bits op)).Makes core instr (valueToReg sum.result) := by
  rcases fromRegs_ok done with ⟨left, right, readLeft, readRight, rfl⟩
  rcases readAs_ok readLeft with ⟨rs1, first, leftType, leftBits, _⟩
  rcases readAs_ok readRight with ⟨rs2, second, rightType, rightBits, _⟩
  have type := type_of_same op leftType rightType
  rw [valueToReg_result _ (by rw [type]; rfl), leftBits rfl, rightBits rfl]
  simp only [Handler.Makes, SimInstr.fromRegs, first, second]
  rfl

/-- A sum of two signed words is that of the low words of the registers, with its sign. -/
theorem makes_fromRegs_int (op : Op) (done : Sums.fromRegs op .int core instr = .ok sum) :
    (SimInstr.fromRegs fun rs1 rs2 => SimInstr.sextWord (Sum.bits op rs1 rs2)).Makes core instr
      (valueToReg sum.result) := by
  rcases fromRegs_ok done with ⟨left, right, readLeft, readRight, rfl⟩
  rcases readAs_ok readLeft with ⟨rs1, first, leftType, _, leftBits⟩
  rcases readAs_ok readRight with ⟨rs2, second, rightType, _, rightBits⟩
  have type := type_of_same op leftType rightType
  have words : Sum.bits op (rs1.setWidth 32) (rs2.setWidth 32) = (Sum.bits op rs1 rs2).setWidth 32 := by
    -- The low word of a sum depends on the low words alone.
    cases op with
    | add => exact (BitVec.setWidth_add rs1 rs2 (by omega)).symm
    | sub =>
      simp only [Sum.bits]
      bv_omega
  have result := Sum.ofInt_result ⟨op, left, right⟩ (w := 32) (by rw [type]; exact Nat.le_refl 32)
  rw [leftBits, rightBits, words] at result
  -- The result is cut to a signed word, and the register extends it again.
  have signed : valueToReg (Sum.result ⟨op, left, right⟩) =
      (BitVec.ofInt 32 (Sum.result ⟨op, left, right⟩).number).signExtend 64 := by
    have whole : Sum.result ⟨op, left, right⟩ = IntType.int.cast (Sum.exact ⟨op, left, right⟩) := by
      rw [Sum.result, type]
    rw [whole, valueToReg_int, IntType.ofInt_cast (Nat.le_refl 32)]
  rw [signed, result]
  simp only [Handler.Makes, SimInstr.fromRegs, first, second]
  rfl

/-- A register plus the signed immediate. -/
theorem makes_addi (done : Sums.addi core instr = .ok sum) :
    SimInstr.addi.Makes core instr (valueToReg sum.result) := by
  rcases read_bind_ok done with ⟨left, read, rfl⟩
  rcases readAs_ok read with ⟨rs1, first, leftType, leftBits, _⟩
  -- An unsigned operand makes the sum unsigned.
  have type : Sum.type ⟨.add, left, instr.immInt.convert .ulong⟩ = .ulong := by
    rw [Sum.type, leftType]
    rfl
  rw [valueToReg_result _ (by rw [type]; rfl), leftBits rfl, valueToReg_convert _ rfl,
    valueToReg_immInt]
  simp only [Handler.Makes, SimInstr.addi, SimInstr.fromImm, first]
  rfl

/-- The sum of two words, which is then read with its sign. -/
theorem makes_addiw (done : Sums.addiw core instr = .ok sum) :
    SimInstr.addiw.Makes core instr (valueToReg (sum.result.convert .int)) := by
  rcases read_bind_ok done with ⟨right, read, rfl⟩
  rcases readAs_ok read with ⟨rs1, first, rightType, _, rightBits⟩
  -- The immediate is unsigned here, and so is the sum.
  have type : Sum.type ⟨.add, instr.immValue, right⟩ = .uint := by
    rw [Sum.type, rightType]
    rfl
  have result := Sum.ofInt_result ⟨.add, instr.immValue, right⟩ (w := 32)
    (by rw [type]; exact Nat.le_refl 32)
  rw [rightBits, immValue_number, BitVec.ofInt_natCast, BitVec.ofNat_toNat, BitVec.setWidth_eq]
    at result
  rw [Value.convert, valueToReg_int, result]
  simp only [Handler.Makes, SimInstr.addiw, first]
  rfl

/-- The immediate without a sign, plus the program counter. -/
theorem makes_auipc (done : Sums.auipc core instr = .ok sum) :
    SimInstr.auipc.Makes core instr (valueToReg sum.result) := by
  cases done
  rw [valueToReg_result _ rfl, valueToReg_convert _ rfl, valueToReg_pcValue, valueToReg,
    immValue_number, BitVec.ofInt_natCast, BitVec.ofNat_toNat]
  rfl

/-- The program counter plus the signed immediate. -/
theorem makes_jal (done : Sums.jal core instr = .ok sum) :
    SimInstr.jal.Makes core instr (valueToReg sum.result) := by
  cases done
  rw [valueToReg_result _ rfl, valueToReg_convert _ rfl, valueToReg_pcValue, valueToReg_immInt]
  rfl

/-- The signed immediate plus a register, with the lowest bit cleared. -/
theorem makes_jalr (done : Sums.jalr core instr = .ok sum) :
    SimInstr.jalr.Makes core instr (valueToReg sum.result &&& ~~~1) := by
  rcases read_bind_ok done with ⟨right, read, rfl⟩
  rcases readAs_ok read with ⟨rs1, first, rightType, rightBits, _⟩
  have type := type_of_same .add (show (instr.immInt.convert .long).type = .long from rfl) rightType
  rw [valueToReg_result _ (by rw [type]; rfl), rightBits rfl, valueToReg_convert _ rfl,
    valueToReg_immInt]
  simp only [Handler.Makes, SimInstr.jalr, first]
  rfl

/-- A base register plus the signed immediate. -/
theorem makes_address {handler : Handler} (done : Sums.address core instr = .ok sum)
    (accesses : ∀ vaBase, core.read instr.rs1 = .ok vaBase →
      handler.Makes core instr (vaBase + instr.signedImm)) :
    handler.Makes core instr (valueToReg sum.result) := by
  rcases read_bind_ok done with ⟨left, read, rfl⟩
  rcases readAs_ok read with ⟨vaBase, first, leftType, leftBits, _⟩
  -- The base is unsigned, so the address is.
  have type : Sum.type ⟨.add, left, instr.immInt⟩ = .ulong := by
    rw [Sum.type, leftType]
    rfl
  rw [valueToReg_result _ (by rw [type]; rfl), leftBits rfl, valueToReg_immInt]
  exact accesses vaBase first

/-- A load accesses its base plus the signed immediate. -/
theorem makes_load {n : Nat} {widen : BitVec (8 * n) → RegValue} {vaBase : RegValue}
    (read : core.read instr.rs1 = .ok vaBase) :
    (Handler.load n widen).Makes core instr (vaBase + instr.signedImm) := by
  simp only [Handler.Makes, Handler.dataVa, read]

/-- A store accesses its base plus the signed immediate. -/
theorem makes_store {n : Nat} {vaBase : RegValue} (read : core.read instr.rs1 = .ok vaBase) :
    (Handler.store n).Makes core instr (vaBase + instr.signedImm) := by
  simp only [Handler.Makes, Handler.dataVa, read]

/-- The target of a branch that is taken. -/
theorem makes_branch {cmp : RegValue → RegValue → Bool}
    (done : Sums.condBranch core instr = .ok sum) :
    (Handler.branch cmp).Makes core instr (valueToReg sum.result) := by
  cases done
  rw [valueToReg_result _ rfl, valueToReg_pcValue, valueToReg_immInt]
  rfl

/-- Every handler makes what its sum gives. -/
theorem makes_mainSum {id : InstrId} {sumOf : Core → Instr → Except Abort Sum}
    (listed : mainSum id = some sumOf) (done : sumOf core instr = .ok sum) :
    ∃ handler, simInstr id = some handler ∧
      handler.Makes core instr (fromSum id sum.result) := by
  unfold mainSum at listed
  -- One case for each handler, by the shape of its sum.
  split at listed <;> cases listed <;> refine ⟨_, rfl, ?_⟩
  · exact makes_fromRegs_long .add done
  · exact makes_fromRegs_long .sub done
  · exact makes_fromRegs_int .add done
  · exact makes_fromRegs_int .sub done
  · exact makes_addi done
  · exact makes_addiw done
  · exact makes_auipc done
  · exact makes_jal done
  · exact makes_jalr done
  all_goals
    first
    | exact makes_address done fun _ read => makes_load read
    | exact makes_address done fun _ read => makes_store read
    | exact makes_branch done

/-- The number of a register that was read as a type. -/
theorem readAs_eq {type : IntType} {idx : BitVec 8} {reg : RegValue} (read : core.read idx = .ok reg) :
    core.readAs type idx = .ok (type.cast reg.toNat) := by
  rw [Core.readAs, read]
  rfl

/-- A register as a signed double word. -/
theorem cast_long (reg : RegValue) : (IntType.long.cast reg.toNat).number = reg.toInt := by
  rw [BitVec.toInt_eq_toNat_bmod]
  simp only [IntType.cast, IntType.wrap, Nat.reducePow]

/-- A register as a signed word. -/
theorem cast_int (reg : RegValue) :
    (IntType.int.cast reg.toNat).number = (reg.setWidth 32).toInt := by
  rw [BitVec.toInt_setWidth]
  simp only [IntType.cast, IntType.wrap, Nat.reducePow]

/-- A sum of both registers in a signed type is defined exactly if its exact value is in range. -/
theorem fromRegs_defined_iff (op : Op) {type : IntType} (isSigned : type.isSigned) :
    (∀ sum, Sums.fromRegs op type core instr = .ok sum → ¬sum.Overflows) ↔
      ∀ rs1 rs2, core.read instr.rs1 = .ok rs1 → core.read instr.rs2 = .ok rs2 →
        type.InRange (op.apply (type.cast rs1.toNat).number (type.cast rs2.toNat).number) := by
  constructor
  · intro defined rs1 rs2 first second
    have made : Sums.fromRegs op type core instr =
        .ok ⟨op, type.cast rs1.toNat, type.cast rs2.toNat⟩ := by
      rw [Sums.fromRegs, readAs_eq first, readAs_eq second]
      rfl
    -- A sum that is made is defined when its exact value is in range.
    exact (Sum.not_overflows_iff op isSigned rfl rfl).1 (defined _ made)
  · intro inRange sum done
    rcases fromRegs_ok done with ⟨left, right, readLeft, readRight, rfl⟩
    rcases readAs_ok readLeft with ⟨rs1, first, _⟩
    rcases readAs_ok readRight with ⟨rs2, second, _⟩
    -- A register that is read as a type is one value.
    rw [readAs_eq first] at readLeft
    rw [readAs_eq second] at readRight
    cases readLeft
    cases readRight
    exact (Sum.not_overflows_iff op isSigned rfl rfl).2 (inRange rs1 rs2 first second)

/-- The target of an indirect jump is defined exactly if the exact sum is in range. -/
theorem jalr_defined_iff :
    (∀ sum, Sums.jalr core instr = .ok sum → ¬sum.Overflows) ↔
      ∀ rs1, core.read instr.rs1 = .ok rs1 →
        IntType.long.InRange (instr.imm.toInt + rs1.toInt) := by
  -- The immediate is a word, which a double word holds exactly.
  have immediate : (instr.immInt.convert .long).number = instr.imm.toInt := by
    have lower := BitVec.le_toInt instr.imm
    have upper := BitVec.toInt_lt (x := instr.imm)
    have inRange : IntType.long.InRange instr.imm.toInt := by
      rw [IntType.InRange]
      omega
    rw [Value.convert, immInt_number]
    exact IntType.wrap_of_inRange inRange
  have defined_iff (rs1 : RegValue) :
      ¬Sum.Overflows ⟨.add, instr.immInt.convert .long, IntType.long.cast rs1.toNat⟩ ↔
        IntType.long.InRange (instr.imm.toInt + rs1.toInt) := by
    have iff := Sum.not_overflows_iff .add (show IntType.isSigned .long from rfl)
      (show (instr.immInt.convert .long).type = .long from rfl)
      (show (IntType.long.cast rs1.toNat).type = .long from rfl)
    rwa [immediate, cast_long] at iff
  constructor
  · intro defined rs1 first
    have made : Sums.jalr core instr =
        .ok ⟨.add, instr.immInt.convert .long, IntType.long.cast rs1.toNat⟩ := by
      rw [Sums.jalr, readAs_eq first]
      rfl
    exact (defined_iff rs1).1 (defined _ made)
  · -- The sum is the one that was just described.
    intro inRange sum done
    rcases read_bind_ok done with ⟨right, read, rfl⟩
    rcases readAs_ok read with ⟨rs1, first, _⟩
    rw [readAs_eq first] at read
    cases read
    exact (defined_iff rs1).2 (inRange rs1 first)

end makes

/-- The instructions whose handlers add or subtract. -/
def summingInstrs : List InstrId :=
  [.add, .sub, .addw, .subw, .addi, .addiw, .auipc, .jal, .jalr,
    .ld, .lw, .lwu, .lh, .lhu, .lb, .lbu, .sd, .sw, .sh, .sb,
    .beq, .bne, .blt, .bltu, .bge, .bgeu]

/-- No sum that the handler of an instruction makes leaves the range of a signed type. -/
structure NoSignedOverflow (id : InstrId) (core : Core) (instr : Instr) : Prop where
  main : ∀ sumOf, mainSum id = some sumOf → ∀ sum, sumOf core instr = .ok sum → ¬sum.Overflows
  others : ∀ sum ∈ otherSums id core, ¬sum.Overflows

/-- The exact sum is in range, where the handler makes it in a signed type. -/
def SumFits (id : InstrId) (core : Core) (instr : Instr) : Prop :=
  match id with
  | .add => ∀ rs1 rs2, core.read instr.rs1 = .ok rs1 → core.read instr.rs2 = .ok rs2 →
    IntType.long.InRange (rs1.toInt + rs2.toInt)
  | .sub => ∀ rs1 rs2, core.read instr.rs1 = .ok rs1 → core.read instr.rs2 = .ok rs2 →
    IntType.long.InRange (rs1.toInt - rs2.toInt)
  | .addw => ∀ rs1 rs2, core.read instr.rs1 = .ok rs1 → core.read instr.rs2 = .ok rs2 →
    IntType.int.InRange ((rs1.setWidth 32).toInt + (rs2.setWidth 32).toInt)
  | .subw => ∀ rs1 rs2, core.read instr.rs1 = .ok rs1 → core.read instr.rs2 = .ok rs2 →
    IntType.int.InRange ((rs1.setWidth 32).toInt - (rs2.setWidth 32).toInt)
  | .jalr => ∀ rs1, core.read instr.rs1 = .ok rs1 →
    IntType.long.InRange (instr.imm.toInt + rs1.toInt)
  | _ => True

/-- The sums of the counters are unsigned. -/
theorem otherSums_defined (id : InstrId) (core : Core) :
    ∀ sum ∈ otherSums id core, ¬sum.Overflows := by
  intro sum member
  -- Each handler makes the sums of the link or those of the counters.
  have listed : sum ∈ Sums.link core ++ Sums.incr core := by
    unfold otherSums at member
    split at member
    · exact List.mem_append_left _ member
    · exact List.mem_append_left _ member
    · exact List.mem_append_right _ member
  simp only [Sums.link, Sums.incr, List.cons_append, List.nil_append, List.mem_cons, List.not_mem_nil,
    or_false] at listed
  rcases listed with rfl | rfl | rfl | rfl <;> exact Sum.not_overflows rfl

/-- The sums of the other handlers are unsigned. -/
theorem mainSum_unsigned {id : InstrId} {core : Core} {instr : Instr}
    {sumOf : Core → Instr → Except Abort Sum} {sum : Sum} (listed : mainSum id = some sumOf)
    (done : sumOf core instr = .ok sum)
    (proper : id ∉ [InstrId.add, .sub, .addw, .subw, .jalr]) : sum.type.isSigned = false := by
  simp only [List.mem_cons, List.not_mem_nil, or_false, not_or] at proper
  -- A register that is read is the left operand or the right one.
  have left {type : IntType} {idx : BitVec 8} {right : Value} (other : type.common right.type = .ulong)
      (made : (do
        let value ← core.readAs type idx
        return (⟨.add, value, right⟩ : Sum)) = .ok sum) : sum.type.isSigned = false := by
    rcases read_bind_ok made with ⟨value, read, rfl⟩
    rcases readAs_ok read with ⟨_, _, same, _⟩
    rw [Sum.type, same, other]
    rfl
  unfold mainSum at listed
  -- Each instruction of the list is excluded, and the others read unsigned operands.
  split at listed <;> cases listed
  · exact absurd rfl proper.1
  · exact absurd rfl proper.2.1
  · exact absurd rfl proper.2.2.1
  · exact absurd rfl proper.2.2.2.1
  · exact left rfl done
  · rcases read_bind_ok done with ⟨value, read, rfl⟩
    rcases readAs_ok read with ⟨_, _, same, _⟩
    rw [Sum.type, same]
    rfl
  · cases done
    rfl
  · cases done
    rfl
  · exact absurd rfl proper.2.2.2.2
  -- The address of an access is unsigned, and so is the target of a branch.
  all_goals
    first
    | exact left rfl done
    | (cases done; rfl)

/-- No sum overflows exactly if the exact one is in range wherever it is made in a signed type. -/
theorem noSignedOverflow_iff {id : InstrId} (listed : id ∈ summingInstrs) (core : Core)
    (instr : Instr) : NoSignedOverflow id core instr ↔ SumFits id core instr := by
  have others := otherSums_defined id core
  -- The property is about the one sum of the handler.
  have main {sumOf : Core → Instr → Except Abort Sum} (found : mainSum id = some sumOf) :
      NoSignedOverflow id core instr ↔ ∀ sum, sumOf core instr = .ok sum → ¬sum.Overflows := by
    constructor
    · intro defined
      exact defined.main sumOf found
    · intro defined
      refine ⟨fun other same => ?_, others⟩
      rw [found] at same
      cases same
      exact defined
  -- Five handlers make their sum in a signed type.
  by_cases proper : id ∈ [InstrId.add, .sub, .addw, .subw, .jalr]
  · simp only [List.mem_cons, List.not_mem_nil, or_false] at proper
    rcases proper with rfl | rfl | rfl | rfl | rfl
    · rw [main rfl, Sums.add, fromRegs_defined_iff .add rfl]
      simp only [cast_long]
      rfl
    · rw [main rfl, Sums.sub, fromRegs_defined_iff .sub rfl]
      simp only [cast_long]
      rfl
    · rw [main rfl, Sums.addw, fromRegs_defined_iff .add rfl]
      simp only [cast_int]
      rfl
    · rw [main rfl, Sums.subw, fromRegs_defined_iff .sub rfl]
      simp only [cast_int]
      rfl
    · rw [main rfl, jalr_defined_iff]
      rfl
  · -- Of the others nothing is asked, and their sums are unsigned.
    have fits : SumFits id core instr := by
      simp only [List.mem_cons, List.not_mem_nil, or_false, not_or] at proper
      unfold SumFits
      split
      · exact absurd rfl proper.1
      · exact absurd rfl proper.2.1
      · exact absurd rfl proper.2.2.1
      · exact absurd rfl proper.2.2.2.1
      · exact absurd rfl proper.2.2.2.2
      · trivial
    refine iff_of_true ⟨?_, others⟩ fits
    intro sumOf found sum done
    exact Sum.not_overflows (mainSum_unsigned found done proper)

/-- Adding two registers that hold zero. -/
theorem noSignedOverflow_iff_add : NoSignedOverflow .add {} {} ↔ SumFits .add {} {} := by
  exact noSignedOverflow_iff (by decide) {} {}

/-- Two registers that hold the largest signed double word and one. -/
def largest : Core where
  hart := { gprFile := .ofRegs ((GPRFile.new.regs.write 1 0x7fffffffffffffff).write 2 1) }

/-- Adding them overflows. -/
theorem not_noSignedOverflow_add : ¬NoSignedOverflow .add largest { rs1 := 1, rs2 := 2 } := by
  intro defined
  have fits := defined.main Sums.add rfl _ rfl
  exact fits (by decide)

end RiscvSim

import RiscvSim.Lib.Rv64iEncoding
import RiscvSim.Proofs.Isa.Immediate

/-! The decoder reads the words of the base instruction set as the instruction set does. -/

namespace RiscvSim

open Rv64i

/-- The identifier of an instruction. -/
def InstrId.ofInstruction : Instruction → InstrId
  | .compute _ (.reg op _ _) => .ofRegOp op
  | .compute _ (.imm op _ _) => .ofImmOp op
  | .compute _ (.shift op _ _) => .ofShiftImm .full op
  | .compute _ (.shiftw op _ _) => .ofShiftImm .half op
  | .compute _ (.lui _) => .lui
  | .auipc _ _ => .auipc
  | .shiftReg width op _ _ _ => .ofShiftReg width op
  | .load load _ _ _ => .ofLoad load
  | .store store _ _ _ => .ofStore store
  | .transfer (.jal _ _) => .jal
  | .transfer (.jalr _ _ _) => .jalr
  | .transfer (.branch cond _ _ _) => .ofCondition cond
  | .fence .. => .fence
  | .ecall => .ecall
  | .ebreak => .ebreak

/-- The bits of a word that are left by a mask over its codes. -/
theorem and_rType (top mask : BitVec 7) (rs2 rs1 : RegIdx) (code inner : BitVec 3) (rd : RegIdx)
    (op low : BitVec 7) : rType top rs2 rs1 code rd op &&& rType mask 0 0 inner 0 low =
      rType (top &&& mask) 0 0 (code &&& inner) 0 (op &&& low) := by
  have apart {v w : Nat} (high left : BitVec v) (low right : BitVec w) :
      (high ++ low) &&& (left ++ right) = (high &&& left) ++ (low &&& right) := BitVec.and_append
  have operand (idx : RegIdx) : idx &&& 0#5 = 0#5 := BitVec.and_zero
  -- Masking goes field by field.
  calc rType top rs2 rs1 code rd op &&& rType mask 0 0 inner 0 low
      = ((top ++ rs2 ++ rs1 ++ code ++ rd) &&& (mask ++ 0#5 ++ 0#5 ++ inner ++ 0#5)) ++
          (op &&& low) := apart _ _ _ _
    _ = (top &&& mask) ++ 0#5 ++ 0#5 ++ (code &&& inner) ++ 0#5 ++ (op &&& low) := by
        rw [apart, apart, apart, apart, operand, operand, operand]

/-- A word has given bits among its codes. -/
theorem matches_codes_iff (mask top : BitVec 7) (inner code : BitVec 3) (low op : BitVec 7)
    (word : InstrCode) :
    (⟨rType mask 0 0 inner 0 low, rType top 0 0 code 0 op⟩ : Pattern 32).Matches word ↔
      funct7 word &&& mask = top ∧ funct3 word &&& inner = code ∧ opcode word &&& low = op := by
  have masked : word &&& rType mask 0 0 inner 0 low =
      rType (funct7 word &&& mask) 0 0 (funct3 word &&& inner) 0 (opcode word &&& low) := by
    rw [← and_rType _ _ (fieldRs2 word) (fieldRs1 word) _ _ (fieldRd word), rType_fields]
  rw [Pattern.Matches, masked]
  constructor
  · intro same
    -- Words that are alike have the same codes.
    obtain ⟨opEq, _, codeEq, _, _, topEq⟩ := fields_rType (funct7 word &&& mask) 0 0
      (funct3 word &&& inner) 0 (opcode word &&& low)
    obtain ⟨opIs, _, codeIs, _, _, topIs⟩ := fields_rType top 0 0 code 0 op
    rw [same] at opEq codeEq topEq
    exact ⟨topEq.symm.trans topIs, codeEq.symm.trans codeIs, opEq.symm.trans opIs⟩
  · rintro ⟨rfl, rfl, rfl⟩
    rfl

/-- An instruction is described by a mask over its codes. -/
def FixesCodes (id : InstrId) (mask top : BitVec 7) (inner code : BitVec 3) (op : BitVec 7) :
    Prop :=
  ∃ descr ∈ instructions, descr.id = id ∧ descr.fixedmask = rType mask 0 0 inner 0 0x7f ∧
    descr.fixedvalue = rType (top &&& mask) 0 0 (code &&& inner) 0 op

instance (id : InstrId) (mask top : BitVec 7) (inner code : BitVec 3) (op : BitVec 7) :
    Decidable (FixesCodes id mask top inner code op) := inferInstanceAs (Decidable (∃ _ ∈ _, _))

section codes

variable (id : InstrId) {top : BitVec 7} {code : BitVec 3} {op : BitVec 7} (rs2 rs1 rd : RegIdx)

/-- A word with the codes of an instruction decodes to it. -/
theorem decode_codes (mask : BitVec 7) (inner : BitVec 3)
    (fixes : FixesCodes id mask top inner code op) :
    (Instr.decode (rType top rs2 rs1 code rd op)).id = id := by
  obtain ⟨descr, member, rfl, fixedmask, fixedvalue⟩ := fixes
  refine decode_id_of_encodes member ?_
  have whole : op &&& 0x7f = op := BitVec.and_allOnes
  rw [InstrDescr.Encodes, fixedmask, fixedvalue, and_rType, whole]

/-- A word decodes to its instruction where the upper code belongs to an immediate. -/
theorem decode_funct3 (fixes : FixesCodes id 0 0 7 code op) :
    (Instr.decode (rType top rs2 rs1 code rd op)).id = id := by
  have clear (value : BitVec 7) : value &&& 0 = 0 := BitVec.and_zero
  refine decode_codes id rs2 rs1 rd 0 7 ?_
  rw [FixesCodes, clear] at fixes ⊢
  exact fixes

/-- A word decodes to its instruction where both codes belong to an immediate. -/
theorem decode_opcode (fixes : FixesCodes id 0 0 0 0 op) :
    (Instr.decode (rType top rs2 rs1 code rd op)).id = id := by
  have clear {w : Nat} (value : BitVec w) : value &&& 0 = 0 := BitVec.and_zero
  refine decode_codes id rs2 rs1 rd 0 0 ?_
  rw [FixesCodes, clear, clear] at fixes ⊢
  exact fixes

end codes

/-- The upper code of a shift is that of its operation, beside a bit of the amount. -/
theorem shiftType_top (top shamt : BitVec 6) :
    (top ++ shamt).extractLsb' 5 7 &&& 0x7e = top ++ 0#1 := by
  have split : (top ++ shamt).extractLsb' 5 7 = top ++ shamt.extractLsb' 5 1 := by
    have bounds := And.intro top.isLt shamt.isLt
    apply BitVec.eq_of_toNat_eq
    simp only [BitVec.extractLsb'_toNat, toNat_append, Nat.shiftRight_eq_div_pow]
    omega
  -- The mask leaves out that bit.
  rw [split, show (0x7e : BitVec 7) = BitVec.allOnes 6 ++ 0#1 from rfl, BitVec.and_append,
    BitVec.and_allOnes, BitVec.and_zero]

/-- The word of an instruction decodes to its identifier. -/
theorem decode_encode_id (instruction : Instruction) :
    (Instr.decode instruction.encode).id = .ofInstruction instruction := by
  cases instruction with
  | compute rd computation =>
    cases computation with
    | reg op rs1 rs2 =>
      exact decode_codes (.ofRegOp op) _ _ _ 0x7f 7 (by cases op <;> decide +kernel)
    | imm op rs1 imm => exact decode_funct3 (.ofImmOp op) _ _ _ (by cases op <;> decide +kernel)
    | shift op rs1 shamt =>
      refine decode_codes (.ofShiftImm .full op) _ _ _ 0x7e 7 ?_
      rw [FixesCodes, shiftType_top]
      cases op <;> decide +kernel
    | shiftw op rs1 shamt =>
      exact decode_codes (.ofShiftImm .half op) _ _ _ 0x7f 7 (by cases op <;> decide +kernel)
    | lui imm => exact decode_opcode .lui _ _ _ (by decide +kernel)
  | auipc rd imm => exact decode_opcode .auipc _ _ _ (by decide +kernel)
  | shiftReg width op rd rs1 rs2 =>
    exact decode_codes (.ofShiftReg width op) _ _ _ 0x7f 7
      (by cases width <;> cases op <;> decide +kernel)
  | load load rd rs1 imm =>
    exact decode_funct3 (.ofLoad load) _ _ _ (by cases load <;> decide +kernel)
  | store store rs1 rs2 imm =>
    exact decode_funct3 (.ofStore store) _ _ _ (by cases store <;> decide +kernel)
  | transfer transfer =>
    cases transfer with
    | jal rd imm => exact decode_opcode .jal _ _ _ (by decide +kernel)
    | jalr rd rs1 imm => exact decode_funct3 .jalr _ _ _ (by decide +kernel)
    | branch cond rs1 rs2 imm =>
      exact decode_funct3 (.ofCondition cond) _ _ _ (by cases cond <;> decide +kernel)
  | fence rd rs1 sets => exact decode_funct3 .fence _ _ _ (by decide +kernel)
  | ecall => decide +kernel
  | ebreak => decide +kernel

section operands

variable {word : InstrCode} {id : InstrId} (decoded : (Instr.decode word).id = id)

include decoded

/-- The operands of a destination and two sources. -/
theorem operands_regs (listed : ListsFields id [.rd, .rs1, .rs2]) :
    (Instr.decode word).rd = (fieldRd word).setWidth 8 ∧
      (Instr.decode word).rs1 = (fieldRs1 word).setWidth 8 ∧
      (Instr.decode word).rs2 = (fieldRs2 word).setWidth 8 := by
  obtain ⟨descr, fields, operands⟩ := operands_of_fields decoded listed
  exact ⟨operands.rd (by simp [fields]), operands.rs1 (by simp [fields]),
    operands.rs2 (by simp [fields])⟩

/-- The operands of a destination, a source and an amount. -/
theorem operands_shamt (listed : ListsFields id [.rd, .rs1, .shamt]) :
    (Instr.decode word).rd = (fieldRd word).setWidth 8 ∧
      (Instr.decode word).rs1 = (fieldRs1 word).setWidth 8 ∧
      (Instr.decode word).imm = (fieldShamt word).setWidth 32 := by
  obtain ⟨descr, fields, operands⟩ := operands_of_fields decoded listed
  exact ⟨operands.rd (by simp [fields]), operands.rs1 (by simp [fields]),
    operands.imm .shamt (by simp [fields]) _ rfl⟩

/-- The operands of a destination, a source and an amount below the width of a half. -/
theorem operands_shamtw (listed : ListsFields id [.rd, .rs1, .shamtw]) :
    (Instr.decode word).rd = (fieldRd word).setWidth 8 ∧
      (Instr.decode word).rs1 = (fieldRs1 word).setWidth 8 ∧
      (Instr.decode word).imm = (fieldRs2 word).setWidth 32 := by
  obtain ⟨descr, fields, operands⟩ := operands_of_fields decoded listed
  exact ⟨operands.rd (by simp [fields]), operands.rs1 (by simp [fields]),
    operands.imm .shamtw (by simp [fields]) _ rfl⟩

end operands

/-- The operands of a fence, which are reserved. -/
theorem operands_fence {word : InstrCode} (decoded : (Instr.decode word).id = .fence) :
    (Instr.decode word).rd = (fieldRd word).setWidth 8 ∧
      (Instr.decode word).rs1 = (fieldRs1 word).setWidth 8 := by
  have described : (⟨.fence, 0x707f, 0xf, [.fm, .pred, .succ, .rs1, .rd]⟩ : InstrDescr) ∈
      instructions := by decide +kernel
  have operands := decodesTo_of_id described decoded
  exact ⟨operands.rd (by simp), operands.rs1 (by simp)⟩

/-- The word of an instruction decodes to it. -/
theorem represents_encode (instruction : Instruction) :
    (Instr.decode instruction.encode).Represents instruction := by
  have id := decode_encode_id instruction
  cases instruction with
  | compute rd computation =>
    cases computation with
    | reg op rs1 rs2 =>
      have listed : ListsFields (.ofRegOp op) [.rd, .rs1, .rs2] := by cases op <;> decide +kernel
      have operands := operands_regs id listed
      obtain ⟨_, rdEq, _, rs1Eq, rs2Eq, _⟩ :=
        fields_rType op.codes.1 rs2 rs1 op.codes.2.1 rd op.codes.2.2
      rw [Instruction.encode, rdEq, rs1Eq, rs2Eq] at operands
      exact ⟨id, operands⟩
    | imm op rs1 imm =>
      have holds := represents_of_holds id (.immOp op)
      obtain ⟨_, rdEq, _, rs1Eq, immEq⟩ := fields_iType rs1 op.codes.1 rd op.codes.2 imm
      rwa [Instruction.encode, rdEq, rs1Eq, immEq] at holds
    | shift op rs1 shamt =>
      have listed : ListsFields (.ofShiftImm .full op) [.rd, .rs1, .shamt] := by
        cases op <;> decide +kernel
      have operands := operands_shamt id listed
      obtain ⟨_, rdEq, _, rs1Eq, _, shamtEq⟩ :=
        fields_shiftType rs1 op.codes.2 rd 0x13 op.codes.1 shamt
      rw [Instruction.encode, rdEq, rs1Eq, shamtEq] at operands
      exact ⟨id, operands⟩
    | shiftw op rs1 shamt =>
      have listed : ListsFields (.ofShiftImm .half op) [.rd, .rs1, .shamtw] := by
        cases op <;> decide +kernel
      have operands := operands_shamtw id listed
      obtain ⟨_, rdEq, _, rs1Eq, shamtEq, _⟩ :=
        fields_rType op.funct7 shamt rs1 op.codes.2 rd 0x1b
      rw [Instruction.encode, rdEq, rs1Eq, shamtEq] at operands
      exact ⟨id, operands⟩
    | lui imm =>
      have holds := represents_of_holds id .lui
      obtain ⟨_, rdEq, immEq⟩ := fields_uType rd 0x37 imm
      rwa [Instruction.encode, rdEq, immEq] at holds
  | auipc rd imm =>
    have holds := represents_of_holds id .auipc
    obtain ⟨_, rdEq, immEq⟩ := fields_uType rd 0x17 imm
    rwa [Instruction.encode, rdEq, immEq] at holds
  | shiftReg width op rd rs1 rs2 =>
    have listed : ListsFields (.ofShiftReg width op) [.rd, .rs1, .rs2] := by
      cases width <;> cases op <;> decide +kernel
    have operands := operands_regs id listed
    obtain ⟨_, rdEq, _, rs1Eq, rs2Eq, _⟩ :=
      fields_rType op.funct7 rs2 rs1 op.codes.2 rd width.opcode
    rw [Instruction.encode, rdEq, rs1Eq, rs2Eq] at operands
    exact ⟨id, operands⟩
  | load load rd rs1 imm =>
    have holds := represents_of_holds id (.load load)
    obtain ⟨_, rdEq, _, rs1Eq, immEq⟩ := fields_iType rs1 load.code rd 0x03 imm
    rwa [Instruction.encode, rdEq, rs1Eq, immEq] at holds
  | store store rs1 rs2 imm =>
    have holds := represents_of_holds id (.store store)
    obtain ⟨_, _, rs1Eq, rs2Eq, immEq⟩ := fields_sType rs2 rs1 store.code 0x23 imm
    rwa [Instruction.encode, rs1Eq, rs2Eq, immEq] at holds
  | transfer transfer =>
    cases transfer with
    | jal rd imm =>
      have holds := represents_of_holds id .jal
      obtain ⟨_, rdEq, immEq⟩ := fields_jType rd 0x6f imm
      rwa [Instruction.encode, rdEq, immEq] at holds
    | jalr rd rs1 imm =>
      have holds := represents_of_holds id .jalr
      obtain ⟨_, rdEq, _, rs1Eq, immEq⟩ := fields_iType rs1 0 rd 0x67 imm
      rwa [Instruction.encode, rdEq, rs1Eq, immEq] at holds
    | branch cond rs1 rs2 imm =>
      have holds := represents_of_holds id (.branch cond)
      obtain ⟨_, _, rs1Eq, rs2Eq, immEq⟩ := fields_bType rs2 rs1 cond.code 0x63 imm
      rwa [Instruction.encode, rs1Eq, rs2Eq, immEq] at holds
  | fence rd rs1 sets =>
    have operands := operands_fence id
    obtain ⟨_, rdEq, _, rs1Eq, _⟩ := fields_iType rs1 0 rd 0x0f sets
    rw [Instruction.encode, rdEq, rs1Eq] at operands
    exact ⟨id, operands⟩
  | ecall => exact id
  | ebreak => exact id

/-- A word that holds an instruction decodes to it. -/
theorem represents_of_decode {word : InstrCode} {instruction : Instruction}
    (held : Rv64i.decode word = some instruction) : (Instr.decode word).Represents instruction := by
  rw [← encode_of_decode held]
  exact represents_encode instruction

end RiscvSim

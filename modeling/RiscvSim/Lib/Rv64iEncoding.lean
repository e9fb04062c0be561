import RiscvSim.Lib.Rv64i
import Mathlib.Data.List.Basic

/-! The words of the base instruction set RV64I: every instruction has one, and it is read back. -/

namespace Rv64i

/-- Words that stand side by side are digits of one number. -/
theorem toNat_append {v w : Nat} (high : BitVec v) (low : BitVec w) :
    (high ++ low).toNat = high.toNat * 2 ^ w + low.toNat := by
  rw [BitVec.toNat_append, ← Nat.shiftLeft_add_eq_or_of_lt low.isLt, Nat.shiftLeft_eq]

section fields

variable (word : BitVec 32)

/-- The operation code. -/
def opcode : BitVec 7 := word.extractLsb' 0 7

/-- The function code of three bits. -/
def funct3 : BitVec 3 := word.extractLsb' 12 3

/-- The function code of six bits, which leaves room for a shift amount. -/
def funct6 : BitVec 6 := word.extractLsb' 26 6

/-- The function code of seven bits. -/
def funct7 : BitVec 7 := word.extractLsb' 25 7

/-- The amount of a shift. -/
def fieldShamt : BitVec 6 := word.extractLsb' 20 6

end fields

section formats

variable (top : BitVec 7) (rs2 rs1 : RegIdx) (code : BitVec 3) (rd : RegIdx) (op : BitVec 7)

/-- The format with two sources and a destination. -/
def rType : BitVec 32 := top ++ rs2 ++ rs1 ++ code ++ rd ++ op

/-- The format with a source, an immediate and a destination. -/
def iType (imm : BitVec 12) : BitVec 32 :=
  rType (imm.extractLsb' 5 7) (imm.extractLsb' 0 5) rs1 code rd op

/-- The format of shifts by an amount of six bits. -/
def shiftType (top : BitVec 6) (shamt : BitVec 6) : BitVec 32 := iType rs1 code rd op (top ++ shamt)

/-- The format with two sources and an immediate. -/
def sType (imm : BitVec 12) : BitVec 32 :=
  rType (imm.extractLsb' 5 7) rs2 rs1 code (imm.extractLsb' 0 5) op

/-- The format of branches, where the eleventh bit stands apart. -/
def bType (imm : BitVec 12) : BitVec 32 :=
  rType (imm.extractLsb' 11 1 ++ imm.extractLsb' 4 6) rs2 rs1 code
    (imm.extractLsb' 0 4 ++ imm.extractLsb' 10 1) op

/-- The format with an upper immediate. -/
def uType (imm : BitVec 20) : BitVec 32 :=
  rType (imm.extractLsb' 13 7) (imm.extractLsb' 8 5) (imm.extractLsb' 3 5) (imm.extractLsb' 0 3)
    rd op

/-- The format of direct jumps, which shuffles the bits of an upper immediate. -/
def jType (imm : BitVec 20) : BitVec 32 :=
  uType rd op (imm.extractLsb' 19 1 ++ imm.extractLsb' 0 10 ++ imm.extractLsb' 10 1 ++
    imm.extractLsb' 11 8)

/-- The fields are the digits of the word. -/
theorem toNat_rType : (rType top rs2 rs1 code rd op).toNat =
    ((((top.toNat * 2 ^ 5 + rs2.toNat) * 2 ^ 5 + rs1.toNat) * 2 ^ 3 + code.toNat) * 2 ^ 5 +
      rd.toNat) * 2 ^ 7 + op.toNat := by
  -- One field after the other is split off at the end.
  calc (rType top rs2 rs1 code rd op).toNat
      = (top ++ rs2 ++ rs1 ++ code ++ rd).toNat * 2 ^ 7 + op.toNat := toNat_append _ op
    _ = _ := by rw [toNat_append, toNat_append, toNat_append, toNat_append]

/-- Every field of a word is read back. -/
theorem fields_rType : opcode (rType top rs2 rs1 code rd op) = op ∧
    fieldRd (rType top rs2 rs1 code rd op) = rd ∧ funct3 (rType top rs2 rs1 code rd op) = code ∧
    fieldRs1 (rType top rs2 rs1 code rd op) = rs1 ∧
    fieldRs2 (rType top rs2 rs1 code rd op) = rs2 ∧
    funct7 (rType top rs2 rs1 code rd op) = top := by
  have digits := toNat_rType top rs2 rs1 code rd op
  have bounds := And.intro top.isLt (And.intro rs2.isLt (And.intro rs1.isLt
    (And.intro code.isLt (And.intro rd.isLt op.isLt))))
  -- Each digit is the remainder of a quotient.
  refine ⟨?_, ?_, ?_, ?_, ?_, ?_⟩ <;> apply BitVec.eq_of_toNat_eq <;>
    simp only [opcode, fieldRd, funct3, fieldRs1, fieldRs2, funct7, BitVec.extractLsb'_toNat,
      Nat.shiftRight_eq_div_pow] <;>
    omega

/-- A word is made of its fields. -/
theorem rType_fields (word : BitVec 32) : rType (funct7 word) (fieldRs2 word) (fieldRs1 word)
    (funct3 word) (fieldRd word) (opcode word) = word := by
  have bound := word.isLt
  apply BitVec.eq_of_toNat_eq
  simp only [toNat_rType, opcode, fieldRd, funct3, fieldRs1, fieldRs2, funct7,
    BitVec.extractLsb'_toNat, Nat.shiftRight_eq_div_pow]
  omega

end formats

/-- The upper part of a word that stands beside another. -/
theorem extract_high {v w : Nat} (high : BitVec v) (low : BitVec w) :
    (high ++ low).extractLsb' w v = high := by
  apply BitVec.eq_of_toNat_eq
  rw [BitVec.extractLsb'_toNat, toNat_append, Nat.shiftRight_eq_div_pow, Nat.add_comm,
    Nat.add_mul_div_right _ _ (Nat.two_pow_pos w), Nat.div_eq_of_lt low.isLt, Nat.zero_add,
    Nat.mod_eq_of_lt high.isLt]

/-- The lower part of a word that stands beside another. -/
theorem extract_low {v w : Nat} (high : BitVec v) (low : BitVec w) :
    (high ++ low).extractLsb' 0 w = low := by
  apply BitVec.eq_of_toNat_eq
  rw [BitVec.extractLsb'_toNat, toNat_append, Nat.shiftRight_zero, Nat.add_comm,
    Nat.add_mul_mod_self_right, Nat.mod_eq_of_lt low.isLt]

/-- Four words that stand side by side come apart again. -/
theorem extract_parts {p q r t : Nat} (first : BitVec p) (second : BitVec q) (third : BitVec r)
    (last : BitVec t) : (first ++ second ++ third ++ last).extractLsb' (t + (r + q)) p = first ∧
      (first ++ second ++ third ++ last).extractLsb' (t + r) q = second ∧
      (first ++ second ++ third ++ last).extractLsb' t r = third ∧
      (first ++ second ++ third ++ last).extractLsb' 0 t = last := by
  -- A run above the last word is a run of the others.
  have above {v w : Nat} (high : BitVec v) (low : BitVec w) (start len : Nat) :
      (high ++ low).extractLsb' (w + start) len = high.extractLsb' start len := by
    rw [BitVec.extractLsb'_append_eq_ite, dif_neg (by omega), Nat.add_sub_cancel_left]
  refine ⟨?_, ?_, ?_, extract_low _ last⟩
  · rw [above, above, extract_high]
  · rw [above]
    exact (above (first ++ second) third 0 q).trans (extract_low first second)
  · exact (above (first ++ second ++ third) last 0 r).trans (extract_low (first ++ second) third)

/-- A run of bits within another is a run of bits of the word. -/
theorem extract_extract {w inner : Nat} (value : BitVec w) (first : Nat) {start len : Nat}
    (inside : start + len ≤ inner) :
    (value.extractLsb' first inner).extractLsb' start len =
      value.extractLsb' (first + start) len := by
  ext i bound
  simp [Nat.add_assoc, show start + i < inner by omega]

/-- The immediates of a word consist of its fields. -/
theorem imm_fields (word : BitVec 32) : immI word = funct7 word ++ fieldRs2 word ∧
    immS word = funct7 word ++ fieldRd word ∧
    immB word = (funct7 word).extractLsb' 6 1 ++ (fieldRd word).extractLsb' 0 1 ++
      (funct7 word).extractLsb' 0 6 ++ (fieldRd word).extractLsb' 1 4 ∧
    immU word = funct7 word ++ fieldRs2 word ++ fieldRs1 word ++ funct3 word ∧
    immJ word = (immU word).extractLsb' 19 1 ++ (immU word).extractLsb' 0 8 ++
      (immU word).extractLsb' 8 1 ++ (immU word).extractLsb' 9 10 ∧
    immI word = funct6 word ++ fieldShamt word := by
  -- A field of a field is a field of the word, and runs of bits are digits of one number.
  refine ⟨?_, rfl, ?_, ?_, ?_, ?_⟩
  · apply BitVec.eq_of_toNat_eq
    simp only [immI, funct7, fieldRs2, toNat_append, BitVec.extractLsb'_toNat,
      Nat.shiftRight_eq_div_pow]
    omega
  · rw [funct7, fieldRd, extract_extract _ _ (by decide), extract_extract _ _ (by decide),
      extract_extract _ _ (by decide), extract_extract _ _ (by decide)]
    rfl
  · apply BitVec.eq_of_toNat_eq
    simp only [immU, funct7, funct3, fieldRs1, fieldRs2, toNat_append, BitVec.extractLsb'_toNat,
      Nat.shiftRight_eq_div_pow]
    omega
  · rw [immU, extract_extract _ _ (by decide), extract_extract _ _ (by decide),
      extract_extract _ _ (by decide), extract_extract _ _ (by decide)]
    rfl
  · apply BitVec.eq_of_toNat_eq
    simp only [immI, funct6, fieldShamt, toNat_append, BitVec.extractLsb'_toNat,
      Nat.shiftRight_eq_div_pow]
    omega

/-- The parts of an immediate are put together again. -/
theorem imm_parts (imm : BitVec 12) (upper : BitVec 20) :
    imm.extractLsb' 5 7 ++ imm.extractLsb' 0 5 = imm ∧
      imm.extractLsb' 11 1 ++ imm.extractLsb' 10 1 ++ imm.extractLsb' 4 6 ++
        imm.extractLsb' 0 4 = imm ∧
      upper.extractLsb' 13 7 ++ upper.extractLsb' 8 5 ++ upper.extractLsb' 3 5 ++
        upper.extractLsb' 0 3 = upper ∧
      upper.extractLsb' 19 1 ++ upper.extractLsb' 11 8 ++ upper.extractLsb' 10 1 ++
        upper.extractLsb' 0 10 = upper := by
  have bounds := And.intro imm.isLt upper.isLt
  refine ⟨?_, ?_, ?_, ?_⟩ <;> apply BitVec.eq_of_toNat_eq <;>
    simp only [toNat_append, BitVec.extractLsb'_toNat, Nat.shiftRight_eq_div_pow] <;>
    omega

section readback

variable (rs2 rs1 : RegIdx) (code : BitVec 3) (rd : RegIdx) (op : BitVec 7)

/-- The fields of a word with an immediate are read back. -/
theorem fields_iType (imm : BitVec 12) : opcode (iType rs1 code rd op imm) = op ∧
    fieldRd (iType rs1 code rd op imm) = rd ∧ funct3 (iType rs1 code rd op imm) = code ∧
    fieldRs1 (iType rs1 code rd op imm) = rs1 ∧ immI (iType rs1 code rd op imm) = imm := by
  obtain ⟨opEq, rdEq, codeEq, rs1Eq, low, high⟩ :=
    fields_rType (imm.extractLsb' 5 7) (imm.extractLsb' 0 5) rs1 code rd op
  refine ⟨opEq, rdEq, codeEq, rs1Eq, ?_⟩
  rw [(imm_fields _).1, iType, high, low, (imm_parts imm 0).1]

/-- The fields of a shift by an immediate are read back. -/
theorem fields_shiftType (top shamt : BitVec 6) :
    opcode (shiftType rs1 code rd op top shamt) = op ∧
      fieldRd (shiftType rs1 code rd op top shamt) = rd ∧
      funct3 (shiftType rs1 code rd op top shamt) = code ∧
      fieldRs1 (shiftType rs1 code rd op top shamt) = rs1 ∧
      funct6 (shiftType rs1 code rd op top shamt) = top ∧
      fieldShamt (shiftType rs1 code rd op top shamt) = shamt := by
  obtain ⟨opEq, rdEq, codeEq, rs1Eq, imm⟩ := fields_iType rs1 code rd op (top ++ shamt)
  refine ⟨opEq, rdEq, codeEq, rs1Eq, ?_⟩
  -- The immediate is made of the code and the amount.
  rw [(imm_fields _).2.2.2.2.2] at imm
  constructor
  · rw [← extract_high (funct6 _) (fieldShamt _), shiftType, imm, extract_high]
  · rw [← extract_low (funct6 _) (fieldShamt _), shiftType, imm, extract_low]

/-- The fields of a store are read back. -/
theorem fields_sType (imm : BitVec 12) : opcode (sType rs2 rs1 code op imm) = op ∧
    funct3 (sType rs2 rs1 code op imm) = code ∧ fieldRs1 (sType rs2 rs1 code op imm) = rs1 ∧
    fieldRs2 (sType rs2 rs1 code op imm) = rs2 ∧ immS (sType rs2 rs1 code op imm) = imm := by
  obtain ⟨opEq, low, codeEq, rs1Eq, rs2Eq, high⟩ :=
    fields_rType (imm.extractLsb' 5 7) rs2 rs1 code (imm.extractLsb' 0 5) op
  refine ⟨opEq, codeEq, rs1Eq, rs2Eq, ?_⟩
  rw [(imm_fields _).2.1, sType, high, low, (imm_parts imm 0).1]

/-- The fields of a branch are read back. -/
theorem fields_bType (imm : BitVec 12) : opcode (bType rs2 rs1 code op imm) = op ∧
    funct3 (bType rs2 rs1 code op imm) = code ∧ fieldRs1 (bType rs2 rs1 code op imm) = rs1 ∧
    fieldRs2 (bType rs2 rs1 code op imm) = rs2 ∧ immB (bType rs2 rs1 code op imm) = imm := by
  obtain ⟨opEq, low, codeEq, rs1Eq, rs2Eq, high⟩ :=
    fields_rType (imm.extractLsb' 11 1 ++ imm.extractLsb' 4 6) rs2 rs1 code
      (imm.extractLsb' 0 4 ++ imm.extractLsb' 10 1) op
  refine ⟨opEq, codeEq, rs1Eq, rs2Eq, ?_⟩
  rw [(imm_fields _).2.2.1, bType, high, low]
  -- The parts that were put side by side come apart again.
  have apart := And.intro (extract_high (imm.extractLsb' 11 1) (imm.extractLsb' 4 6))
    (extract_low (imm.extractLsb' 11 1) (imm.extractLsb' 4 6))
  have apartLow := And.intro (extract_high (imm.extractLsb' 0 4) (imm.extractLsb' 10 1))
    (extract_low (imm.extractLsb' 0 4) (imm.extractLsb' 10 1))
  calc _ = imm.extractLsb' 11 1 ++ imm.extractLsb' 10 1 ++ imm.extractLsb' 4 6 ++
        imm.extractLsb' 0 4 := by rw [apart.1, apart.2, apartLow.1, apartLow.2]
    _ = imm := (imm_parts imm 0).2.1

/-- The fields of a word with an upper immediate are read back. -/
theorem fields_uType (imm : BitVec 20) : opcode (uType rd op imm) = op ∧
    fieldRd (uType rd op imm) = rd ∧ immU (uType rd op imm) = imm := by
  obtain ⟨opEq, rdEq, first, second, third, fourth⟩ :=
    fields_rType (imm.extractLsb' 13 7) (imm.extractLsb' 8 5) (imm.extractLsb' 3 5)
      (imm.extractLsb' 0 3) rd op
  refine ⟨opEq, rdEq, ?_⟩
  rw [(imm_fields _).2.2.2.1, uType, first, second, third, fourth, (imm_parts 0 imm).2.2.1]

/-- The fields of a direct jump are read back. -/
theorem fields_jType (imm : BitVec 20) : opcode (jType rd op imm) = op ∧
    fieldRd (jType rd op imm) = rd ∧ immJ (jType rd op imm) = imm := by
  obtain ⟨opEq, rdEq, upper⟩ := fields_uType rd op (imm.extractLsb' 19 1 ++
    imm.extractLsb' 0 10 ++ imm.extractLsb' 10 1 ++ imm.extractLsb' 11 8)
  refine ⟨opEq, rdEq, ?_⟩
  rw [(imm_fields _).2.2.2.2.1, jType, upper]
  -- Each part of the immediate is where it was put.
  have parts := extract_parts (imm.extractLsb' 19 1) (imm.extractLsb' 0 10) (imm.extractLsb' 10 1)
    (imm.extractLsb' 11 8)
  simp only [Nat.reduceAdd] at parts
  calc _ = imm.extractLsb' 19 1 ++ imm.extractLsb' 11 8 ++ imm.extractLsb' 10 1 ++
        imm.extractLsb' 0 10 := by rw [parts.1, parts.2.1, parts.2.2.1, parts.2.2.2]
    _ = imm := (imm_parts 0 imm).2.2.2

end readback

section words

variable (word : BitVec 32)

/-- A word is made of the fields of the formats with a signed immediate. -/
theorem format_fields :
    iType (fieldRs1 word) (funct3 word) (fieldRd word) (opcode word) (immI word) = word ∧
      shiftType (fieldRs1 word) (funct3 word) (fieldRd word) (opcode word) (funct6 word)
        (fieldShamt word) = word ∧
      sType (fieldRs2 word) (fieldRs1 word) (funct3 word) (opcode word) (immS word) = word ∧
      bType (fieldRs2 word) (fieldRs1 word) (funct3 word) (opcode word) (immB word) = word ∧
      uType (fieldRd word) (opcode word) (immU word) = word ∧
      jType (fieldRd word) (opcode word) (immJ word) = word := by
  have upper : uType (fieldRd word) (opcode word) (immU word) = word := by
    have bound := word.isLt
    apply BitVec.eq_of_toNat_eq
    simp only [uType, toNat_rType, immU, opcode, fieldRd, BitVec.extractLsb'_toNat,
      Nat.shiftRight_eq_div_pow]
    omega
  have immediate : iType (fieldRs1 word) (funct3 word) (fieldRd word) (opcode word)
      (immI word) = word := by
    rw [iType, (imm_fields word).1, extract_high, extract_low, rType_fields]
  refine ⟨immediate, ?_, ?_, ?_, upper, ?_⟩
  · rw [shiftType, ← (imm_fields word).2.2.2.2.2, immediate]
  · rw [sType, (imm_fields word).2.1, extract_high, extract_low, rType_fields]
  · -- The parts of the immediate are gathered in the two fields that it is made of.
    have parts := extract_parts (word.extractLsb' 31 1) (word.extractLsb' 7 1)
      (word.extractLsb' 25 6) (word.extractLsb' 8 4)
    simp only [Nat.reduceAdd] at parts
    have top : word.extractLsb' 31 1 ++ word.extractLsb' 25 6 = funct7 word :=
      BitVec.extractLsb'_append_extractLsb'_eq_extractLsb' rfl
    have low : word.extractLsb' 8 4 ++ word.extractLsb' 7 1 = fieldRd word :=
      BitVec.extractLsb'_append_extractLsb'_eq_extractLsb' rfl
    calc _ = rType (word.extractLsb' 31 1 ++ word.extractLsb' 25 6) (fieldRs2 word)
          (fieldRs1 word) (funct3 word) (word.extractLsb' 8 4 ++ word.extractLsb' 7 1)
          (opcode word) := by rw [bType, immB, parts.1, parts.2.1, parts.2.2.1, parts.2.2.2]
      _ = word := by rw [top, low, rType_fields]
  · -- So are those of a direct jump in an upper immediate.
    have parts := extract_parts (word.extractLsb' 31 1) (word.extractLsb' 12 8)
      (word.extractLsb' 20 1) (word.extractLsb' 21 10)
    simp only [Nat.reduceAdd] at parts
    have whole : word.extractLsb' 31 1 ++ word.extractLsb' 21 10 ++ word.extractLsb' 20 1 ++
        word.extractLsb' 12 8 = immU word := by
      apply BitVec.eq_of_toNat_eq
      simp only [immU, toNat_append, BitVec.extractLsb'_toNat, Nat.shiftRight_eq_div_pow]
      omega
    rw [jType, immJ, parts.1, parts.2.1, parts.2.2.1, parts.2.2.2, whole, upper]

end words

/-- The operations on two registers, one by one. -/
def RegOp.all : List RegOp := [add, sub, slt, sltu, and, or, xor, addw, subw]

/-- The function codes and the operation code of an operation on two registers. -/
def RegOp.codes : RegOp → BitVec 7 × BitVec 3 × BitVec 7
  | add => (0x00, 0, 0x33)
  | sub => (0x20, 0, 0x33)
  | slt => (0x00, 2, 0x33)
  | sltu => (0x00, 3, 0x33)
  | xor => (0x00, 4, 0x33)
  | or => (0x00, 6, 0x33)
  | and => (0x00, 7, 0x33)
  | addw => (0x00, 0, 0x3b)
  | subw => (0x20, 0, 0x3b)

/-- The operations on a register and an immediate, one by one. -/
def ImmOp.all : List ImmOp := [addi, slti, sltiu, andi, ori, xori, addiw]

/-- The function code and the operation code of an operation on a register and an immediate. -/
def ImmOp.codes : ImmOp → BitVec 3 × BitVec 7
  | addi => (0, 0x13)
  | slti => (2, 0x13)
  | sltiu => (3, 0x13)
  | xori => (4, 0x13)
  | ori => (6, 0x13)
  | andi => (7, 0x13)
  | addiw => (0, 0x1b)

/-- The shift operations, one by one. -/
def ShiftOp.all : List ShiftOp := [sll, srl, sra]

/-- The function codes of a shift operation. -/
def ShiftOp.codes : ShiftOp → BitVec 6 × BitVec 3
  | sll => (0x00, 1)
  | srl => (0x00, 5)
  | sra => (0x10, 5)

/-- The function code of seven bits of a shift operation. -/
def ShiftOp.funct7 (op : ShiftOp) : BitVec 7 := op.codes.1 ++ 0#1

/-- The operation code of shifts by a register. -/
def ShiftWidth.opcode : ShiftWidth → BitVec 7
  | full => 0x33
  | half => 0x3b

/-- The conditions, one by one. -/
def Condition.all : List Condition := [eq, ne, lt, ge, ltu, geu]

/-- The function code of a condition. -/
def Condition.code : Condition → BitVec 3
  | eq => 0
  | ne => 1
  | lt => 4
  | ge => 5
  | ltu => 6
  | geu => 7

/-- The loads, one by one. -/
def Load.all : List Load := [lb, lh, lw, ld, lbu, lhu, lwu]

/-- The function code of a load. -/
def Load.code : Load → BitVec 3
  | lb => 0
  | lh => 1
  | lw => 2
  | ld => 3
  | lbu => 4
  | lhu => 5
  | lwu => 6

/-- The stores, one by one. -/
def Store.all : List Store := [sb, sh, sw, sd]

/-- The function code of a store. -/
def Store.code : Store → BitVec 3
  | sb => 0
  | sh => 1
  | sw => 2
  | sd => 3

/-- The word of an environment call. -/
def ecallWord : BitVec 32 := 0x73

/-- The word of an environment break. -/
def ebreakWord : BitVec 32 := 0x100073

/-- The word of an instruction. -/
def Instruction.encode : Instruction → BitVec 32
  | compute rd (.reg op rs1 rs2) => rType op.codes.1 rs2 rs1 op.codes.2.1 rd op.codes.2.2
  | compute rd (.imm op rs1 imm) => iType rs1 op.codes.1 rd op.codes.2 imm
  | compute rd (.shift op rs1 shamt) => shiftType rs1 op.codes.2 rd 0x13 op.codes.1 shamt
  | compute rd (.shiftw op rs1 shamt) => rType op.funct7 shamt rs1 op.codes.2 rd 0x1b
  | compute rd (.lui imm) => uType rd 0x37 imm
  | auipc rd imm => uType rd 0x17 imm
  | shiftReg width op rd rs1 rs2 => rType op.funct7 rs2 rs1 op.codes.2 rd width.opcode
  | .load op rd rs1 imm => iType rs1 op.code rd 0x03 imm
  | .store op rs1 rs2 imm => sType rs2 rs1 op.code 0x23 imm
  | transfer (.jal rd imm) => jType rd 0x6f imm
  | transfer (.jalr rd rs1 imm) => iType rs1 0 rd 0x67 imm
  | transfer (.branch cond rs1 rs2 imm) => bType rs2 rs1 cond.code 0x63 imm
  | fence rd rs1 sets => iType rs1 0 rd 0x0f sets
  | ecall => ecallWord
  | ebreak => ebreakWord

section decoding

variable (word : BitVec 32)

/-- The shift by a register that a word holds. -/
def decodeShiftReg (width : ShiftWidth) : Option Instruction :=
  (ShiftOp.all.find? fun op => op.funct7 = funct7 word ∧ op.codes.2 = funct3 word).map fun op =>
    .shiftReg width op (fieldRd word) (fieldRs1 word) (fieldRs2 word)

/-- The operation on two registers that a word holds. -/
def decodeReg : Option Instruction :=
  (RegOp.all.find? fun op => op.codes = (funct7 word, funct3 word, opcode word)).map fun op =>
    .compute (fieldRd word) (.reg op (fieldRs1 word) (fieldRs2 word))

/-- The operation on a register and an immediate that a word holds. -/
def decodeImm : Option Instruction :=
  (ImmOp.all.find? fun op => op.codes = (funct3 word, opcode word)).map fun op =>
    .compute (fieldRd word) (.imm op (fieldRs1 word) (immI word))

/-- The shift by an immediate that a word holds. -/
def decodeShift : Option Instruction :=
  (ShiftOp.all.find? fun op => op.codes = (funct6 word, funct3 word)).map fun op =>
    .compute (fieldRd word) (.shift op (fieldRs1 word) (fieldShamt word))

/-- The shift of the low half by an immediate that a word holds. -/
def decodeShiftw : Option Instruction :=
  (ShiftOp.all.find? fun op => op.funct7 = funct7 word ∧ op.codes.2 = funct3 word).map fun op =>
    .compute (fieldRd word) (.shiftw op (fieldRs1 word) (fieldRs2 word))

/-- The instruction that a word holds, if any. -/
def decode : Option Instruction :=
  match opcode word with
  | 0x37#7 => some (.compute (fieldRd word) (.lui (immU word)))
  | 0x17#7 => some (.auipc (fieldRd word) (immU word))
  | 0x6f#7 => some (.transfer (.jal (fieldRd word) (immJ word)))
  | 0x67#7 =>
    if funct3 word = 0 then some (.transfer (.jalr (fieldRd word) (fieldRs1 word) (immI word)))
    else none
  | 0x63#7 =>
    (Condition.all.find? fun cond => cond.code = funct3 word).map fun cond =>
      .transfer (.branch cond (fieldRs1 word) (fieldRs2 word) (immB word))
  | 0x03#7 =>
    (Load.all.find? fun op => op.code = funct3 word).map fun op =>
      .load op (fieldRd word) (fieldRs1 word) (immI word)
  | 0x23#7 =>
    (Store.all.find? fun op => op.code = funct3 word).map fun op =>
      .store op (fieldRs1 word) (fieldRs2 word) (immS word)
  -- Shifts have function codes that no other operation has.
  | 0x13#7 => (decodeImm word).or (decodeShift word)
  | 0x1b#7 => (decodeImm word).or (decodeShiftw word)
  | 0x33#7 => (decodeReg word).or (decodeShiftReg word .full)
  | 0x3b#7 => (decodeReg word).or (decodeShiftReg word .half)
  | 0x0f#7 =>
    if funct3 word = 0 then some (.fence (fieldRd word) (fieldRs1 word) (immI word)) else none
  -- Every bit of the other two is fixed.
  | 0x73#7 =>
    if word = ecallWord then some .ecall
    else if word = ebreakWord then some .ebreak
    else none
  | _ => none

end decoding

/-- What is found satisfies the condition of the search. -/
theorem holds_of_find {α : Type} {p : α → Prop} [DecidablePred p] {options : List α} {option : α}
    (found : (options.find? fun option => decide (p option)) = some option) : p option := by
  simpa using List.find?_some found

/-- A word that holds an operation on two registers is the word of it. -/
theorem encode_of_decodeReg {word : BitVec 32} {instruction : Instruction}
    (decoded : decodeReg word = some instruction) : instruction.encode = word := by
  obtain ⟨op, found, rfl⟩ := Option.map_eq_some_iff.mp decoded
  have codes := holds_of_find found
  -- The codes are the fields of the word that are no operands.
  rw [Instruction.encode, codes]
  exact rType_fields word

/-- A word that holds an operation on a register and an immediate is the word of it. -/
theorem encode_of_decodeImm {word : BitVec 32} {instruction : Instruction}
    (decoded : decodeImm word = some instruction) : instruction.encode = word := by
  obtain ⟨op, found, rfl⟩ := Option.map_eq_some_iff.mp decoded
  have codes := holds_of_find found
  rw [Instruction.encode, codes]
  exact (format_fields word).1

/-- A word that holds a shift by a register is the word of it. -/
theorem encode_of_decodeShiftReg {word : BitVec 32} {width : ShiftWidth} {instruction : Instruction}
    (op : opcode word = width.opcode) (decoded : decodeShiftReg word width = some instruction) :
    instruction.encode = word := by
  obtain ⟨kind, found, rfl⟩ := Option.map_eq_some_iff.mp decoded
  obtain ⟨top, code⟩ := holds_of_find found
  rw [Instruction.encode, top, code, ← op]
  exact rType_fields word

/-- A word that holds an instruction is the word of it. -/
theorem encode_of_decode {word : BitVec 32} {instruction : Instruction}
    (decoded : decode word = some instruction) : instruction.encode = word := by
  obtain ⟨immediate, shift, store, branch, upper, jump⟩ := format_fields word
  have registers := rType_fields word
  -- The codes that were found are those of the word, and so are the operands.
  unfold decode at decoded
  split at decoded
  · rename_i op
    cases decoded
    rwa [op] at upper
  · rename_i op
    cases decoded
    rwa [op] at upper
  · rename_i op
    cases decoded
    rwa [op] at jump
  · rename_i op
    split at decoded
    · rename_i code
      cases decoded
      rwa [op, code] at immediate
    · cases decoded
  · rename_i op
    obtain ⟨cond, found, rfl⟩ := Option.map_eq_some_iff.mp decoded
    have code := holds_of_find found
    rwa [op, ← code] at branch
  · rename_i op
    obtain ⟨load, found, rfl⟩ := Option.map_eq_some_iff.mp decoded
    have code := holds_of_find found
    rwa [op, ← code] at immediate
  · rename_i op
    obtain ⟨kind, found, rfl⟩ := Option.map_eq_some_iff.mp decoded
    have code := holds_of_find found
    rwa [op, ← code] at store
  · rename_i op
    rcases Option.or_eq_some_iff.mp decoded with decoded | ⟨_, decoded⟩
    · exact encode_of_decodeImm decoded
    · obtain ⟨kind, found, rfl⟩ := Option.map_eq_some_iff.mp decoded
      have codes := holds_of_find found
      obtain ⟨top, code⟩ := Prod.mk.inj codes
      rwa [op, ← top, ← code] at shift
  · rename_i op
    rcases Option.or_eq_some_iff.mp decoded with decoded | ⟨_, decoded⟩
    · exact encode_of_decodeImm decoded
    · obtain ⟨kind, found, rfl⟩ := Option.map_eq_some_iff.mp decoded
      obtain ⟨top, code⟩ := holds_of_find found
      rwa [op, ← top, ← code] at registers
  · rename_i op
    rcases Option.or_eq_some_iff.mp decoded with decoded | ⟨_, decoded⟩
    · exact encode_of_decodeReg decoded
    · exact @encode_of_decodeShiftReg _ .full _ op decoded
  · rename_i op
    rcases Option.or_eq_some_iff.mp decoded with decoded | ⟨_, decoded⟩
    · exact encode_of_decodeReg decoded
    · exact @encode_of_decodeShiftReg _ .half _ op decoded
  · rename_i op
    split at decoded
    · rename_i code
      cases decoded
      rwa [op, code] at immediate
    · cases decoded
  · split at decoded
    · rename_i isCall
      cases decoded
      exact isCall.symm
    · split at decoded
      · rename_i isBreak
        cases decoded
        exact isBreak.symm
      · cases decoded
  · cases decoded

/-- The word of an instruction holds it. -/
theorem decode_encode (instruction : Instruction) : decode instruction.encode = some instruction := by
  cases instruction with
  | compute rd computation =>
    cases computation with
    | reg op rs1 rs2 =>
      obtain ⟨opEq, rdEq, codeEq, rs1Eq, rs2Eq, topEq⟩ :=
        fields_rType op.codes.1 rs2 rs1 op.codes.2.1 rd op.codes.2.2
      simp only [Instruction.encode, decode, decodeReg, opEq, rdEq, codeEq, rs1Eq, rs2Eq, topEq]
      cases op <;> rfl
    | imm op rs1 imm =>
      obtain ⟨opEq, rdEq, codeEq, rs1Eq, immEq⟩ :=
        fields_iType rs1 op.codes.1 rd op.codes.2 imm
      simp only [Instruction.encode, decode, decodeImm, opEq, rdEq, codeEq, rs1Eq, immEq]
      cases op <;> rfl
    | shift op rs1 shamt =>
      obtain ⟨opEq, rdEq, codeEq, rs1Eq, topEq, shamtEq⟩ :=
        fields_shiftType rs1 op.codes.2 rd 0x13 op.codes.1 shamt
      simp only [Instruction.encode, decode, decodeImm, decodeShift, opEq, rdEq, codeEq, rs1Eq,
        topEq, shamtEq]
      cases op <;> rfl
    | shiftw op rs1 shamt =>
      obtain ⟨opEq, rdEq, codeEq, rs1Eq, shamtEq, topEq⟩ :=
        fields_rType op.funct7 shamt rs1 op.codes.2 rd 0x1b
      simp only [Instruction.encode, decode, decodeImm, decodeShiftw, opEq, rdEq, codeEq, rs1Eq,
        topEq, shamtEq]
      cases op <;> rfl
    | lui imm =>
      obtain ⟨opEq, rdEq, immEq⟩ := fields_uType rd 0x37 imm
      simp only [Instruction.encode, decode, opEq, rdEq, immEq]
      rfl
  | auipc rd imm =>
    obtain ⟨opEq, rdEq, immEq⟩ := fields_uType rd 0x17 imm
    simp only [Instruction.encode, decode, opEq, rdEq, immEq]
    rfl
  | shiftReg width op rd rs1 rs2 =>
    obtain ⟨opEq, rdEq, codeEq, rs1Eq, rs2Eq, topEq⟩ :=
      fields_rType op.funct7 rs2 rs1 op.codes.2 rd width.opcode
    simp only [Instruction.encode, decode, decodeReg, decodeShiftReg, opEq, rdEq, codeEq, rs1Eq,
      rs2Eq, topEq]
    cases width <;> cases op <;> rfl
  | load op rd rs1 imm =>
    obtain ⟨opEq, rdEq, codeEq, rs1Eq, immEq⟩ := fields_iType rs1 op.code rd 0x03 imm
    simp only [Instruction.encode, decode, opEq, rdEq, codeEq, rs1Eq, immEq]
    cases op <;> rfl
  | store op rs1 rs2 imm =>
    obtain ⟨opEq, codeEq, rs1Eq, rs2Eq, immEq⟩ := fields_sType rs2 rs1 op.code 0x23 imm
    simp only [Instruction.encode, decode, opEq, codeEq, rs1Eq, rs2Eq, immEq]
    cases op <;> rfl
  | transfer transfer =>
    cases transfer with
    | jal rd imm =>
      obtain ⟨opEq, rdEq, immEq⟩ := fields_jType rd 0x6f imm
      simp only [Instruction.encode, decode, opEq, rdEq, immEq]
      rfl
    | jalr rd rs1 imm =>
      obtain ⟨opEq, rdEq, codeEq, rs1Eq, immEq⟩ := fields_iType rs1 0 rd 0x67 imm
      simp only [Instruction.encode, decode, opEq, rdEq, codeEq, rs1Eq, immEq]
      rfl
    | branch cond rs1 rs2 imm =>
      obtain ⟨opEq, codeEq, rs1Eq, rs2Eq, immEq⟩ := fields_bType rs2 rs1 cond.code 0x63 imm
      simp only [Instruction.encode, decode, opEq, codeEq, rs1Eq, rs2Eq, immEq]
      cases cond <;> rfl
  | fence rd rs1 sets =>
    obtain ⟨opEq, rdEq, codeEq, rs1Eq, immEq⟩ := fields_iType rs1 0 rd 0x0f sets
    simp only [Instruction.encode, decode, opEq, rdEq, codeEq, rs1Eq, immEq]
    rfl
  | ecall => rfl
  | ebreak => rfl

/-- The words of the instruction set are read exactly as they are written. -/
theorem decode_eq_some_iff (word : BitVec 32) (instruction : Instruction) :
    decode word = some instruction ↔ instruction.encode = word :=
  ⟨encode_of_decode, fun same => same ▸ decode_encode instruction⟩

end Rv64i

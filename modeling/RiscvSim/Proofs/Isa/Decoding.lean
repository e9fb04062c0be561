import RiscvSim.Proofs.Isa.Encoding

/-! Which words the decoder reads as the base instruction set does. -/

namespace RiscvSim

open Rv64i

/-- The upper code of a word is that of a shift beside a bit of its amount. -/
theorem funct7_top (word : InstrCode) : funct7 word &&& 0x7e = funct6 word ++ 0#1 := by
  have split : funct7 word = (funct6 word ++ fieldShamt word).extractLsb' 5 7 := by
    rw [← (imm_fields word).2.2.2.2.2, immI, extract_extract _ _ (by decide)]
    rfl
  rw [split, shiftType_top]

/-- A word of an environment call or a breakpoint, but for the register that it leaves zero. -/
def AlmostSystem (word : InstrCode) : Prop :=
  (word &&& 0xfffff07f = ecallWord ∨ word &&& 0xfffff07f = ebreakWord) ∧ word &&& 0xf80 ≠ 0

instance (word : InstrCode) : Decidable (AlmostSystem word) := inferInstanceAs (Decidable (_ ∧ _))

/-- A word without an instruction that the decoder takes for one, as it skips some of its codes. -/
def Overread (word : InstrCode) : Prop :=
  opcode word = 0x67 ∧ funct3 word ≠ 0 ∨
    opcode word = 0x13 ∧ funct3 word = 1 ∧ funct6 word ≠ 0 ∨
    opcode word = 0x1b ∧ funct3 word = 1 ∧ funct7 word ≠ 0 ∨
    AlmostSystem word

instance (word : InstrCode) : Decidable (Overread word) := inferInstanceAs (Decidable (_ ∨ _))

/-- The leaf of indirect jumps, which is reached with any function code. -/
def jalrLeaf : LaxLeaf where
  id := .jalr
  tested := ⟨rType 0 0 0 0 0 0x7f, rType 0 0 0 0 0 0x67⟩
  untested := ⟨rType 0 0 0 7 0 0, rType 0 0 0 0 0 0⟩

/-- The leaf of left shifts by an immediate, which is reached with any upper code. -/
def slliLeaf : LaxLeaf where
  id := .slli
  tested := ⟨rType 0 0 0 7 0 0x7f, rType 0 0 0 1 0 0x13⟩
  untested := ⟨rType 0x7e 0 0 0 0 0, rType 0 0 0 0 0 0⟩

/-- The leaf of left shifts of words by an immediate, which is reached with any upper code. -/
def slliwLeaf : LaxLeaf where
  id := .slliw
  tested := ⟨rType 0 0 0 7 0 0x7f, rType 0 0 0 1 0 0x1b⟩
  untested := ⟨rType 0x7f 0 0 0 0 0, rType 0 0 0 0 0 0⟩

/-- The leaf of environment calls, which is reached with any destination. -/
def ecallLeaf : LaxLeaf where
  id := .ecall
  tested := ⟨0xfffff07f, ecallWord⟩
  untested := ⟨0xf80, 0⟩

/-- The leaf of breakpoints, which is reached with any destination. -/
def ebreakLeaf : LaxLeaf where
  id := .ebreak
  tested := ⟨0xfffff07f, ebreakWord⟩
  untested := ⟨0xf80, 0⟩

/-- The leaves of the base set that are reached too early. -/
def baseLaxLeaves : List LaxLeaf := [jalrLeaf, slliLeaf, slliwLeaf, ecallLeaf, ebreakLeaf]

/-- The identifiers of the base set, which have handlers but for two. -/
def InstrId.IsBase (id : InstrId) : Prop := id ∈ implementedInstrs ∨ id ∈ [.fence, .ebreak]

instance (id : InstrId) : Decidable id.IsBase := inferInstanceAs (Decidable (_ ∨ _))

/-- These leaves are reached too early, and no others of the base set are. -/
theorem lax_base : (∀ lax ∈ baseLaxLeaves, lax ∈ laxLeaves) ∧
    ∀ lax ∈ laxLeaves, lax.id.IsBase → lax ∈ baseLaxLeaves := by
  decide +kernel

/-- Every instruction of the base set has one of its identifiers. -/
theorem InstrId.isBase_ofInstruction (instruction : Instruction) :
    (InstrId.ofInstruction instruction).IsBase := by
  cases instruction with
  | compute rd computation =>
    cases computation with
    | reg op rs1 rs2 => exact show (InstrId.ofRegOp op).IsBase by cases op <;> decide
    | imm op rs1 imm => exact show (InstrId.ofImmOp op).IsBase by cases op <;> decide
    | shift op rs1 shamt => exact show (InstrId.ofShiftImm .full op).IsBase by cases op <;> decide
    | shiftw op rs1 shamt =>
      exact show (InstrId.ofShiftImm .half op).IsBase by cases op <;> decide
    | lui imm => exact show InstrId.lui.IsBase by decide
  | auipc rd imm => exact show InstrId.auipc.IsBase by decide
  | shiftReg width op rd rs1 rs2 =>
    exact show (InstrId.ofShiftReg width op).IsBase by cases width <;> cases op <;> decide
  | load load rd rs1 imm => exact show (InstrId.ofLoad load).IsBase by cases load <;> decide
  | store store rs1 rs2 imm => exact show (InstrId.ofStore store).IsBase by cases store <;> decide
  | transfer transfer =>
    cases transfer with
    | jal rd imm => exact show InstrId.jal.IsBase by decide
    | jalr rd rs1 imm => exact show InstrId.jalr.IsBase by decide
    | branch cond rs1 rs2 imm =>
      exact show (InstrId.ofCondition cond).IsBase by cases cond <;> decide
  | fence rd rs1 sets => exact show InstrId.fence.IsBase by decide
  | ecall => exact show InstrId.ecall.IsBase by decide
  | ebreak => exact show InstrId.ebreak.IsBase by decide

/-- An instruction without the sets of accesses that a fence orders. -/
def withoutSets : Instruction → Instruction
  | .fence rd rs1 _ => .fence rd rs1 0
  | instruction => instruction

/-- Only a fence has sets to lose. -/
theorem withoutSets_eq_iff {instruction : Instruction}
    (other : InstrId.ofInstruction instruction ≠ .fence) (held : Instruction) :
    withoutSets held = withoutSets instruction ↔ held = instruction := by
  have kept : withoutSets instruction = instruction := by
    cases instruction with
    | fence => exact absurd rfl other
    | _ => rfl
  rw [kept]
  cases held with
  | fence rd rs1 sets =>
    constructor
    · rintro rfl
      exact absurd rfl other
    · rintro rfl
      exact absurd rfl other
  | _ => rfl

/-- Only fences have their identifier. -/
theorem fence_of_id {instruction : Instruction}
    (fence : InstrId.ofInstruction instruction = .fence) :
    ∃ rd rs1 sets, instruction = .fence rd rs1 sets := by
  cases instruction with
  | fence rd rs1 sets => exact ⟨rd, rs1, sets, rfl⟩
  | compute rd computation =>
    cases computation with
    | reg op => cases op <;> exact InstrId.noConfusion fence
    | imm op => cases op <;> exact InstrId.noConfusion fence
    | shift op => cases op <;> exact InstrId.noConfusion fence
    | shiftw op => cases op <;> exact InstrId.noConfusion fence
    | lui => exact InstrId.noConfusion fence
  | shiftReg width op => cases width <;> cases op <;> exact InstrId.noConfusion fence
  | load load => cases load <;> exact InstrId.noConfusion fence
  | store store => cases store <;> exact InstrId.noConfusion fence
  | transfer transfer =>
    cases transfer with
    | branch cond => cases cond <;> exact InstrId.noConfusion fence
    | _ => exact InstrId.noConfusion fence
  | _ => exact InstrId.noConfusion fence

/-- A decoded instruction represents instructions that differ in the sets of a fence only. -/
theorem represents_of_withoutSets {instr : Instr} {held instruction : Instruction}
    (same : withoutSets held = withoutSets instruction) (represents : instr.Represents held) :
    instr.Represents instruction := by
  by_cases fence : InstrId.ofInstruction instruction = .fence
  · obtain ⟨rd, rs1, sets, rfl⟩ := fence_of_id fence
    cases held with
    | fence heldRd heldRs1 heldSets =>
      obtain ⟨rfl, rfl, _⟩ := Instruction.fence.inj same
      exact represents
    | _ => exact Instruction.noConfusion same
  · rwa [(withoutSets_eq_iff fence held).mp same] at represents

/-- A decoded instruction that represents another one has its identifier. -/
theorem Instr.Represents.id {instr : Instr} {instruction : Instruction}
    (represents : instr.Represents instruction) : instr.id = .ofInstruction instruction := by
  cases instruction with
  | compute rd computation => cases computation <;> exact represents.1
  | auipc rd imm => exact represents.1
  | shiftReg width op rd rs1 rs2 => exact represents.1
  | load load rd rs1 imm => exact represents.1
  | store store rs1 rs2 imm => exact represents.1
  | transfer transfer => cases transfer <;> exact represents.1
  | fence rd rs1 sets => exact represents.1
  | ecall => exact represents
  | ebreak => exact represents

/-- A value is widened with zeros from one value only. -/
theorem setWidth_unique {v w : Nat} {wide : BitVec w} {left right : BitVec v}
    (ofLeft : wide = left.setWidth w) (ofRight : wide = right.setWidth w) (larger : v ≤ w) :
    left = right := by
  have values := congrArg BitVec.toNat (ofLeft.symm.trans ofRight)
  rw [BitVec.toNat_setWidth_of_le larger, BitVec.toNat_setWidth_of_le larger] at values
  exact BitVec.eq_of_toNat_eq values

/-- A value is widened with signs from one value only. -/
theorem signExtend_unique {v w : Nat} {wide : BitVec w} {left right : BitVec v}
    (ofLeft : wide = left.signExtend w) (ofRight : wide = right.signExtend w) (larger : v ≤ w) :
    left = right := by
  have values := congrArg BitVec.toInt (ofLeft.symm.trans ofRight)
  rw [BitVec.toInt_signExtend_of_le larger, BitVec.toInt_signExtend_of_le larger] at values
  exact BitVec.eq_of_toInt_eq values

/-- A value with zeros behind it is so from one value only. -/
theorem append_zero_inj {v w : Nat} {left right : BitVec v} (same : left ++ 0#w = right ++ 0#w) :
    left = right := by
  rw [← extract_high left 0#w, same, extract_high]

/-- The description of an instruction is unique. -/
theorem descr_unique {left right : InstrDescr} (leftMember : left ∈ instructions)
    (rightMember : right ∈ instructions) (same : left.id = right.id) : left = right :=
  List.inj_on_of_nodup_map instructions_nodup leftMember rightMember same

/-- A word with the codes of an instruction without operands is the word of it. -/
theorem word_of_fixed {id : InstrId} {value : InstrCode}
    (fixes : ∃ descr ∈ instructions, descr.id = id ∧ descr.fixedmask = 0xffffffff ∧
      descr.fixedvalue = value)
    {word : InstrCode} {descr : InstrDescr} (member : descr ∈ instructions) (same : descr.id = id)
    (encodes : descr.Encodes word) : word = value := by
  obtain ⟨other, otherMember, otherSame, fixedmask, fixedvalue⟩ := fixes
  have whole : word &&& 0xffffffff = word := BitVec.and_allOnes
  rwa [descr_unique member otherMember (same.trans otherSame.symm), InstrDescr.Encodes, fixedmask,
    fixedvalue, whole] at encodes

section represented

variable {word : InstrCode} {instruction : Instruction}

/-- A word with the tested bits of a lax leaf reaches it. -/
theorem reached_of_tested {lax : LaxLeaf} (member : lax ∈ laxLeaves)
    (tested : lax.tested.Matches word) : Instr.handleNode word decodertree = some lax.id := by
  obtain ⟨⟨⟨tests, _⟩, path, rfl, implied⟩, _⟩ := lax_reached lax member
  exact (handleNode_eq_some_iff _ _).mpr ⟨tests, path, fun test inTests =>
    Pattern.matches_of_implies (implied test inTests) tested⟩

/-- The codes that a lax leaf leaves untested are right in a word that is not overread. -/
theorem untested_matches (strict : ¬Overread word) {lax : LaxLeaf} (member : lax ∈ laxLeaves)
    (same : lax.id = .ofInstruction instruction) (tested : lax.tested.Matches word) :
    lax.untested.Matches word := by
  have whole (op : BitVec 7) : op &&& 0x7f = op := BitVec.and_allOnes
  have wholeCode (code : BitVec 3) : code &&& 7 = code := BitVec.and_allOnes
  have clear {w : Nat} (value : BitVec w) : value &&& 0 = 0 := BitVec.and_zero
  have listed := lax_base.2 lax member (same ▸ InstrId.isBase_ofInstruction instruction)
  unfold Overread at strict
  simp only [baseLaxLeaves, List.mem_cons, List.not_mem_nil, or_false] at listed
  rcases listed with rfl | rfl | rfl | rfl | rfl
  · obtain ⟨_, _, op⟩ := (matches_codes_iff _ _ _ _ _ _ _).mp tested
    refine (matches_codes_iff _ _ _ _ _ _ _).mpr ⟨clear _, ?_, clear _⟩
    rw [wholeCode]
    by_contra code
    exact strict (.inl ⟨(whole _).symm.trans op, code⟩)
  · obtain ⟨_, code, op⟩ := (matches_codes_iff _ _ _ _ _ _ _).mp tested
    refine (matches_codes_iff _ _ _ _ _ _ _).mpr ⟨?_, clear _, clear _⟩
    have top : funct6 word = 0 := by
      by_contra top
      exact strict (.inr (.inl ⟨(whole _).symm.trans op, (wholeCode _).symm.trans code, top⟩))
    rw [funct7_top, top]
    rfl
  · obtain ⟨_, code, op⟩ := (matches_codes_iff _ _ _ _ _ _ _).mp tested
    refine (matches_codes_iff _ _ _ _ _ _ _).mpr ⟨?_, clear _, clear _⟩
    rw [whole]
    by_contra top
    exact strict (.inr (.inr (.inl
      ⟨(whole _).symm.trans op, (wholeCode _).symm.trans code, top⟩)))
  · by_contra register
    exact strict (.inr (.inr (.inr ⟨.inl tested, register⟩)))
  · by_contra register
    exact strict (.inr (.inr (.inr ⟨.inr tested, register⟩)))

/-- A word that decodes to a base instruction has all its codes, unless it is overread. -/
theorem encodes_of_id (decoded : (Instr.decode word).id = .ofInstruction instruction)
    (strict : ¬Overread word) :
    ∃ descr ∈ instructions, descr.id = .ofInstruction instruction ∧ descr.Encodes word := by
  have noStatus : InstrId.ofInstruction instruction ≠ .simStatusInstr := by
    intro status
    exact absurd (status ▸ InstrId.isBase_ofInstruction instruction) (by decide)
  have reached := (decode_id_iff word noStatus).mp decoded
  obtain ⟨tests, path, holds⟩ := (handleNode_eq_some_iff _ _).mp reached
  have merged := Pattern.merge_matches holds
  obtain ⟨descr, described, same, implied | ⟨lax, member, leads, implied⟩⟩ := leaf_described _ path
  · exact ⟨descr, described, same, Pattern.matches_of_implies implied merged⟩
  · -- The word is led to the lax leaf, which is then that of the instruction.
    have tested := Pattern.matches_of_implies leads merged
    have laxSame : lax.id = .ofInstruction instruction :=
      Option.some.inj ((reached_of_tested member tested).symm.trans reached)
    have untested := untested_matches strict member laxSame tested
    have bits : ∀ pattern ∈ [lax.tested, lax.untested], pattern.Matches word := by
      simp [tested, untested]
    exact ⟨descr, described, same,
      Pattern.matches_of_implies implied (Pattern.merge_matches bits)⟩

variable (represents : (Instr.decode word).Represents instruction) (strict : ¬Overread word)

include represents strict

/-- The codes of a word that decodes to a base instruction are those of the instruction. -/
theorem codes_of_represents {mask top : BitVec 7} {inner code : BitVec 3} {op : BitVec 7}
    (fixes : FixesCodes (.ofInstruction instruction) mask top inner code op) :
    funct7 word &&& mask = top &&& mask ∧ funct3 word &&& inner = code &&& inner ∧
      opcode word = op := by
  obtain ⟨descr, member, same, encodes⟩ := encodes_of_id represents.id strict
  obtain ⟨other, otherMember, otherSame, fixedmask, fixedvalue⟩ := fixes
  rw [descr_unique member otherMember (same.trans otherSame.symm), InstrDescr.Encodes, fixedmask,
    fixedvalue] at encodes
  obtain ⟨topEq, codeEq, opEq⟩ := (matches_codes_iff _ _ _ _ _ _ _).mp encodes
  have whole : opcode word &&& 0x7f = opcode word := BitVec.and_allOnes
  exact ⟨topEq, codeEq, whole.symm.trans opEq⟩

/-- A word that decodes to an instruction has both codes of it where the instruction fixes them. -/
theorem codes_of_fixed {top : BitVec 7} {code : BitVec 3} {op : BitVec 7}
    (fixes : FixesCodes (.ofInstruction instruction) 0x7f top 7 code op) :
    funct7 word = top ∧ funct3 word = code ∧ opcode word = op := by
  obtain ⟨topEq, codeEq, opEq⟩ := codes_of_represents represents strict fixes
  have whole (value : BitVec 7) : value &&& 0x7f = value := BitVec.and_allOnes
  have wholeCode (value : BitVec 3) : value &&& 7 = value := BitVec.and_allOnes
  rw [whole, whole] at topEq
  rw [wholeCode, wholeCode] at codeEq
  exact ⟨topEq, codeEq, opEq⟩

/-- A word has the lower code of its instruction where the upper one belongs to an immediate. -/
theorem funct3_of_fixed {code : BitVec 3} {op : BitVec 7}
    (fixes : FixesCodes (.ofInstruction instruction) 0 0 7 code op) :
    funct3 word = code ∧ opcode word = op := by
  obtain ⟨_, codeEq, opEq⟩ := codes_of_represents represents strict fixes
  have whole (value : BitVec 3) : value &&& 7 = value := BitVec.and_allOnes
  rw [whole, whole] at codeEq
  exact ⟨codeEq, opEq⟩

/-- A word that decodes to a base instruction is the word of it, unless it is overread. -/
theorem encode_of_represents (other : InstrId.ofInstruction instruction ≠ .fence) :
    instruction.encode = word := by
  obtain ⟨immediate, shift, store, branch, upper, jump⟩ := format_fields word
  have registers := rType_fields word
  -- The codes and the operands of the word are those of the instruction.
  cases instruction with
  | compute rd computation =>
    cases computation with
    | reg op rs1 rs2 =>
      have fixes : FixesCodes (.ofRegOp op) 0x7f op.codes.1 7 op.codes.2.1 op.codes.2.2 := by
        cases op <;> decide +kernel
      obtain ⟨top, code, low⟩ := codes_of_fixed represents strict fixes
      obtain ⟨rdIs, rs1Is, rs2Is⟩ := operands_regs represents.1 (by cases op <;> decide +kernel)
      obtain ⟨_, rdEq, rs1Eq, rs2Eq⟩ := represents
      rwa [top, code, low, setWidth_unique rdIs rdEq (by decide),
        setWidth_unique rs1Is rs1Eq (by decide), setWidth_unique rs2Is rs2Eq (by decide)]
        at registers
    | imm op rs1 imm =>
      have fixes : FixesCodes (.ofImmOp op) 0 0 7 op.codes.1 op.codes.2 := by
        cases op <;> decide +kernel
      obtain ⟨code, low⟩ := funct3_of_fixed represents strict fixes
      obtain ⟨_, rdIs, rs1Is, immIs⟩ := represents_of_holds represents.1 (.immOp op)
      obtain ⟨_, rdEq, rs1Eq, immEq⟩ := represents
      rwa [code, low, setWidth_unique rdIs rdEq (by decide),
        setWidth_unique rs1Is rs1Eq (by decide), signExtend_unique immIs immEq (by decide)]
        at immediate
    | shift op rs1 shamt =>
      have fixes : FixesCodes (.ofShiftImm .full op) 0x7e (op.codes.1 ++ 0#1) 7 op.codes.2 0x13 := by
        cases op <;> decide +kernel
      obtain ⟨top, code, low⟩ := codes_of_represents represents strict fixes
      have topEq : funct6 word = op.codes.1 := by
        rw [funct7_top] at top
        refine append_zero_inj (top.trans ?_)
        cases op <;> rfl
      have whole (value : BitVec 3) : value &&& 7 = value := BitVec.and_allOnes
      rw [whole, whole] at code
      obtain ⟨rdIs, rs1Is, immIs⟩ := operands_shamt represents.1 (by cases op <;> decide +kernel)
      obtain ⟨_, rdEq, rs1Eq, immEq⟩ := represents
      rwa [topEq, code, low, setWidth_unique rdIs rdEq (by decide),
        setWidth_unique rs1Is rs1Eq (by decide), setWidth_unique immIs immEq (by decide)] at shift
    | shiftw op rs1 shamt =>
      have fixes : FixesCodes (.ofShiftImm .half op) 0x7f op.funct7 7 op.codes.2 0x1b := by
        cases op <;> decide +kernel
      obtain ⟨top, code, low⟩ := codes_of_fixed represents strict fixes
      obtain ⟨rdIs, rs1Is, immIs⟩ := operands_shamtw represents.1 (by cases op <;> decide +kernel)
      obtain ⟨_, rdEq, rs1Eq, immEq⟩ := represents
      rwa [top, code, low, setWidth_unique rdIs rdEq (by decide),
        setWidth_unique rs1Is rs1Eq (by decide), setWidth_unique immIs immEq (by decide)]
        at registers
    | lui imm =>
      have fixes : FixesCodes .lui 0 0 0 0 0x37 := by decide +kernel
      obtain ⟨_, _, low⟩ := codes_of_represents represents strict fixes
      obtain ⟨_, rdIs, immIs⟩ := represents_of_holds represents.1 .lui
      obtain ⟨_, rdEq, immEq⟩ := represents
      rwa [low, setWidth_unique rdIs rdEq (by decide), append_zero_inj (immIs.symm.trans immEq)]
        at upper
  | auipc rd imm =>
    have fixes : FixesCodes .auipc 0 0 0 0 0x17 := by decide +kernel
    obtain ⟨_, _, low⟩ := codes_of_represents represents strict fixes
    obtain ⟨_, rdIs, immIs⟩ := represents_of_holds represents.1 .auipc
    obtain ⟨_, rdEq, immEq⟩ := represents
    rwa [low, setWidth_unique rdIs rdEq (by decide), append_zero_inj (immIs.symm.trans immEq)]
      at upper
  | shiftReg width op rd rs1 rs2 =>
    have fixes : FixesCodes (.ofShiftReg width op) 0x7f op.funct7 7 op.codes.2 width.opcode := by
      cases width <;> cases op <;> decide +kernel
    obtain ⟨top, code, low⟩ := codes_of_fixed represents strict fixes
    obtain ⟨rdIs, rs1Is, rs2Is⟩ :=
      operands_regs represents.1 (by cases width <;> cases op <;> decide +kernel)
    obtain ⟨_, rdEq, rs1Eq, rs2Eq⟩ := represents
    rwa [top, code, low, setWidth_unique rdIs rdEq (by decide),
      setWidth_unique rs1Is rs1Eq (by decide), setWidth_unique rs2Is rs2Eq (by decide)]
      at registers
  | load load rd rs1 imm =>
    have fixes : FixesCodes (.ofLoad load) 0 0 7 load.code 0x03 := by
      cases load <;> decide +kernel
    obtain ⟨code, low⟩ := funct3_of_fixed represents strict fixes
    obtain ⟨_, rdIs, rs1Is, immIs⟩ := represents_of_holds represents.1 (.load load)
    obtain ⟨_, rdEq, rs1Eq, immEq⟩ := represents
    rwa [code, low, setWidth_unique rdIs rdEq (by decide),
      setWidth_unique rs1Is rs1Eq (by decide), signExtend_unique immIs immEq (by decide)]
      at immediate
  | store kind rs1 rs2 imm =>
    have fixes : FixesCodes (.ofStore kind) 0 0 7 kind.code 0x23 := by
      cases kind <;> decide +kernel
    obtain ⟨code, low⟩ := funct3_of_fixed represents strict fixes
    obtain ⟨_, rs1Is, rs2Is, immIs⟩ := represents_of_holds represents.1 (.store kind)
    obtain ⟨_, rs1Eq, rs2Eq, immEq⟩ := represents
    rwa [code, low, setWidth_unique rs1Is rs1Eq (by decide),
      setWidth_unique rs2Is rs2Eq (by decide), signExtend_unique immIs immEq (by decide)] at store
  | transfer transfer =>
    cases transfer with
    | jal rd imm =>
      have fixes : FixesCodes .jal 0 0 0 0 0x6f := by decide +kernel
      obtain ⟨_, _, low⟩ := codes_of_represents represents strict fixes
      obtain ⟨_, rdIs, immIs⟩ := represents_of_holds represents.1 .jal
      obtain ⟨_, rdEq, immEq⟩ := represents
      rwa [low, setWidth_unique rdIs rdEq (by decide),
        append_zero_inj (signExtend_unique immIs immEq (by decide))] at jump
    | jalr rd rs1 imm =>
      have fixes : FixesCodes .jalr 0 0 7 0 0x67 := by decide +kernel
      obtain ⟨code, low⟩ := funct3_of_fixed represents strict fixes
      obtain ⟨_, rdIs, rs1Is, immIs⟩ := represents_of_holds represents.1 .jalr
      obtain ⟨_, rdEq, rs1Eq, immEq⟩ := represents
      rwa [code, low, setWidth_unique rdIs rdEq (by decide),
        setWidth_unique rs1Is rs1Eq (by decide), signExtend_unique immIs immEq (by decide)]
        at immediate
    | branch cond rs1 rs2 imm =>
      have fixes : FixesCodes (.ofCondition cond) 0 0 7 cond.code 0x63 := by
        cases cond <;> decide +kernel
      obtain ⟨code, low⟩ := funct3_of_fixed represents strict fixes
      obtain ⟨_, rs1Is, rs2Is, immIs⟩ := represents_of_holds represents.1 (.branch cond)
      obtain ⟨_, rs1Eq, rs2Eq, immEq⟩ := represents
      rwa [code, low, setWidth_unique rs1Is rs1Eq (by decide),
        setWidth_unique rs2Is rs2Eq (by decide),
        append_zero_inj (signExtend_unique immIs immEq (by decide))] at branch
  | fence rd rs1 sets => exact absurd rfl other
  | ecall =>
    have decoded : (Instr.decode word).id = .ofInstruction .ecall := represents
    obtain ⟨descr, member, same, encodes⟩ := encodes_of_id decoded strict
    exact (word_of_fixed (by decide +kernel) member same encodes).symm
  | ebreak =>
    have decoded : (Instr.decode word).id = .ofInstruction .ebreak := represents
    obtain ⟨descr, member, same, encodes⟩ := encodes_of_id decoded strict
    exact (word_of_fixed (by decide +kernel) member same encodes).symm

end represented

/-- A word that decodes to a fence is the word of one, with sets of its own. -/
theorem encode_of_fence {word : InstrCode} {rd rs1 : RegIdx} {sets : BitVec 12}
    (represents : (Instr.decode word).Represents (.fence rd rs1 sets)) (strict : ¬Overread word) :
    (Instruction.fence rd rs1 (immI word)).encode = word := by
  have immediate := (format_fields word).1
  have fixes : FixesCodes .fence 0 0 7 0 0x0f := by decide +kernel
  obtain ⟨code, low⟩ := funct3_of_fixed represents strict fixes
  obtain ⟨rdIs, rs1Is⟩ := operands_fence represents.1
  obtain ⟨_, rdEq, rs1Eq⟩ := represents
  rwa [code, low, setWidth_unique rdIs rdEq (by decide),
    setWidth_unique rs1Is rs1Eq (by decide)] at immediate

/-- The decoder reads a word as the base set does: as the instruction that it holds, if any.

The sets of a fence are dropped.
-/
def ReadsBase (word : InstrCode) : Prop :=
  ∀ instruction, (Instr.decode word).Represents instruction ↔
    (Rv64i.decode word).map withoutSets = some (withoutSets instruction)

/-- An overread word is taken for an instruction that it does not hold. -/
theorem misread_of_overread {word : InstrCode} (overread : Overread word) :
    ∃ instruction, (Instr.decode word).Represents instruction ∧
      InstrId.ofInstruction instruction ≠ .fence ∧ instruction.encode ≠ word := by
  have whole (op : BitVec 7) : op &&& 0x7f = op := BitVec.and_allOnes
  have wholeCode (code : BitVec 3) : code &&& 7 = code := BitVec.and_allOnes
  have clear {w : Nat} (value : BitVec w) : value &&& 0 = 0 := BitVec.and_zero
  -- The tested codes lead to the leaf.
  have leads (lax : LaxLeaf) (member : lax ∈ baseLaxLeaves)
      (tested : lax.tested.Matches word) : (Instr.decode word).id = lax.id := by
    have noStatus : ∀ lax ∈ baseLaxLeaves, lax.id ≠ .simStatusInstr := by decide
    have listed := lax_base.1 lax member
    exact (decode_id_iff word (noStatus lax member)).mpr (reached_of_tested listed tested)
  rcases overread with
    ⟨op, code⟩ | ⟨op, code, top⟩ | ⟨op, code, top⟩ | ⟨call | break_, register⟩
  · have decoded := leads jalrLeaf (by decide) ((matches_codes_iff _ _ _ _ _ _ _).mpr
      ⟨clear _, clear _, (whole _).trans op⟩)
    refine ⟨_, represents_of_holds decoded .jalr, InstrId.noConfusion, fun same => code ?_⟩
    rw [← same]
    exact (fields_iType _ _ _ _ _).2.2.1
  · have decoded := leads slliLeaf (by decide) ((matches_codes_iff _ _ _ _ _ _ _).mpr
      ⟨clear _, (wholeCode _).trans code, (whole _).trans op⟩)
    refine ⟨.compute (fieldRd word) (.shift .sll (fieldRs1 word) (fieldShamt word)),
      ⟨decoded, operands_shamt decoded (by decide +kernel)⟩, InstrId.noConfusion,
      fun same => top ?_⟩
    rw [← same]
    exact (fields_shiftType _ _ _ _ _ _).2.2.2.2.1
  · have decoded := leads slliwLeaf (by decide) ((matches_codes_iff _ _ _ _ _ _ _).mpr
      ⟨clear _, (wholeCode _).trans code, (whole _).trans op⟩)
    refine ⟨.compute (fieldRd word) (.shiftw .sll (fieldRs1 word) (fieldRs2 word)),
      ⟨decoded, operands_shamtw decoded (by decide +kernel)⟩, InstrId.noConfusion,
      fun same => top ?_⟩
    rw [← same]
    exact (fields_rType _ _ _ _ _ _).2.2.2.2.2
  · refine ⟨.ecall, leads ecallLeaf (by decide) call, InstrId.noConfusion, fun same => ?_⟩
    exact register (same ▸ rfl)
  · refine ⟨.ebreak, leads ebreakLeaf (by decide) break_, InstrId.noConfusion, fun same => ?_⟩
    exact register (same ▸ rfl)

/-- The decoder reads exactly the words as the base set does that are not overread. -/
theorem readsBase_iff (word : InstrCode) : ReadsBase word ↔ ¬Overread word := by
  constructor
  · intro reads overread
    obtain ⟨instruction, represents, other, differs⟩ := misread_of_overread overread
    obtain ⟨held, decoded, same⟩ := Option.map_eq_some_iff.mp ((reads instruction).mp represents)
    rw [(withoutSets_eq_iff other held).mp same] at decoded
    exact differs (encode_of_decode decoded)
  · intro strict instruction
    constructor
    · intro represents
      by_cases fence : InstrId.ofInstruction instruction = .fence
      · obtain ⟨rd, rs1, sets, rfl⟩ := fence_of_id fence
        rw [(decode_eq_some_iff word _).mpr (encode_of_fence represents strict)]
        rfl
      · rw [(decode_eq_some_iff word _).mpr (encode_of_represents represents strict fence)]
        rfl
    · intro reads
      obtain ⟨held, decoded, same⟩ := Option.map_eq_some_iff.mp reads
      exact represents_of_withoutSets same (represents_of_decode decoded)

end RiscvSim

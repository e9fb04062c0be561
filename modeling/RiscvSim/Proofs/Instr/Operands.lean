import RiscvSim.Proofs.Instr.Decoder
import RiscvSim.Simulator.Dispatch
import Mathlib.Tactic.IntervalCases
import Mathlib.Data.List.Nodup

/-! The operands and the handler that a described word decodes to. -/

namespace RiscvSim

/-- The immediate that a word holds in a field, assembled as its format prescribes. -/
def Field.immediate (instrCode : InstrCode) : Field → Option (BitVec 32)
  | imm12 => some ((instrCode.extractLsb' 20 12).signExtend 32)
  | storeimm => some ((instrCode.extractLsb' 25 7 ++ instrCode.extractLsb' 7 5).signExtend 32)
  | bimm => some ((instrCode.extractLsb' 31 1 ++ instrCode.extractLsb' 7 1 ++
      instrCode.extractLsb' 25 6 ++ instrCode.extractLsb' 8 4 ++ 0#1).signExtend 32)
  | jimm20 => some ((instrCode.extractLsb' 31 1 ++ instrCode.extractLsb' 12 8 ++
      instrCode.extractLsb' 20 1 ++ instrCode.extractLsb' 21 10 ++ 0#1).signExtend 32)
  | imm20 => some (instrCode.extractLsb' 12 20 ++ 0#12)
  | shamt => some ((instrCode.extractLsb' 20 6).setWidth 32)
  | shamtw => some ((instrCode.extractLsb' 20 5).setWidth 32)
  | _ => none

/-- The register fields that are decoded, with the member that each is assigned to. -/
def Instr.reg (instr : Instr) : Field → Option (BitVec 8)
  | .rd => some instr.rd
  | .rs1 => some instr.rs1
  | .rs2 => some instr.rs2
  | .rm => some instr.rm
  | _ => none

/-- Assigning a field sets its own register member and no other. -/
theorem assignField_reg (instrCode : InstrCode) (state : Instr × Nat) (listed : Field)
    {field : Field} (known : field ∈ [Field.rd, .rs1, .rs2, .rm]) :
    (Instr.assignField instrCode state listed).1.reg field =
      if listed = field then some (Instr.getReg field instrCode) else state.1.reg field := by
  -- Each of the four registers has a member of its own.
  simp only [List.mem_cons, List.not_mem_nil, or_false] at known
  rcases known with rfl | rfl | rfl | rfl <;> cases listed <;> rfl

/-- A register member is read from its own bits when it is listed, and is zero otherwise. -/
theorem fieldAssigning_reg (id : InstrId) (fields : List Field) (instrCode : InstrCode)
    (field : Field) (known : field ∈ [Field.rd, .rs1, .rs2, .rm]) :
    (Instr.fieldAssigning id fields instrCode).reg field =
      some (if field ∈ fields then Instr.getReg field instrCode else 0) := by
  -- By induction on the listed fields, for any state they are assigned to.
  have assigned : ∀ state : Instr × Nat,
      (fields.foldl (Instr.assignField instrCode) state).1.reg field =
        if field ∈ fields then some (Instr.getReg field instrCode) else state.1.reg field := by
    induction fields with
    | nil => intro state; rfl
    | cons listed rest ih =>
      intro state
      rw [List.foldl_cons, ih, assignField_reg _ _ _ known]
      -- The member is read from the word alone, so listing the field again changes nothing.
      by_cases here : listed = field
      · simp [here]
      · simp [here, Ne.symm here]
  rw [Instr.fieldAssigning, assigned]
  split
  · rfl
  · -- A member that is not assigned keeps the zero it starts with.
    simp only [List.mem_cons, List.not_mem_nil, or_false] at known
    rcases known with rfl | rfl | rfl | rfl <;> rfl

/-- The immediate and the highest value bit after one more immediate field. -/
def immStep (instrCode : InstrCode) (state : BitVec 32 × Nat) (field : Field) : BitVec 32 × Nat :=
  let imm := field.location.foldl (fun imm bits => imm ||| Instr.getBinValue bits instrCode) state.1
  let extendFrom := field.location.foldl (fun top bits => max top bits.fromBit) state.2
  (if field ∉ Instr.immsNoExtend ∧ extendFrom ≤ 30 then signExtend extendFrom imm else imm,
    extendFrom)

/-- Only the listed immediate fields change the immediate. -/
theorem fieldAssigning_imm (id : InstrId) (fields : List Field) (instrCode : InstrCode) :
    (Instr.fieldAssigning id fields instrCode).imm =
      ((fields.filter (· ∈ Instr.knownImms)).foldl (immStep instrCode) (0, 0)).1 := by
  -- By induction on the listed fields, for any immediate they start from.
  have assigned : ∀ state : Instr × Nat,
      ((fields.foldl (Instr.assignField instrCode) state).1.imm,
        (fields.foldl (Instr.assignField instrCode) state).2) =
      (fields.filter (· ∈ Instr.knownImms)).foldl (immStep instrCode) (state.1.imm, state.2) := by
    induction fields with
    | nil => intro state; rfl
    | cons listed rest ih =>
      intro state
      rw [List.foldl_cons, ih]
      -- A register field changes neither part, and an immediate field makes the step.
      cases listed <;> rfl
  exact congrArg Prod.fst (assigned _)

/-- No description lists two immediates. -/
theorem one_immediate : ∀ descr ∈ instructions,
    (descr.fields.filter (· ∈ Instr.knownImms)).length ≤ 1 := by
  decide +kernel

/-- A moved field has the bits of the word at its place and zeros around it. -/
theorem getLsbD_moved (instrCode : InstrCode) {hi lo : Nat} (up : Nat) (ordered : lo ≤ hi)
    (inside : hi < 32) (i : Nat) :
    (getBitField hi lo instrCode <<< up).getLsbD i =
      (decide (i < 32 ∧ up ≤ i ∧ i - up < hi - lo + 1) && instrCode.getLsbD (lo + (i - up))) := by
  -- The field itself is a run of the word's bits, and the shift moves it up.
  rw [getBitField_eq_extractLsb _ (by decide) ordered inside]
  simp only [BitVec.getLsbD_shiftLeft, BitVec.getLsbD_setWidth, BitVec.getLsbD_extractLsb']
  grind

/-- Sign extension depends only on the bits up to the sign. -/
theorem signExtend_of_bits {signIdx : Nat} {imm : BitVec (signIdx + 1)} {value : BitVec 32}
    (inside : signIdx < 32) (same : ∀ i < signIdx + 1, imm.getLsbD i = value.getLsbD i) :
    imm.signExtend 32 = signExtend signIdx value := by
  -- Both words are cut at the sign before they are extended.
  rw [signExtend_eq value inside]
  congr 1
  apply BitVec.eq_of_getLsbD_eq
  intro i bound
  rw [same i bound, BitVec.getLsbD_setWidth, decide_eq_true bound, Bool.true_and]

/-- One immediate field gives the immediate of its format. -/
theorem immStep_immediate (instrCode : InstrCode) (field : Field) (known : field ∈ Instr.knownImms) :
    field.immediate instrCode = some (immStep instrCode (0, 0) field).1 := by
  simp only [Instr.knownImms, List.mem_cons, List.not_mem_nil, or_false] at known
  -- Bit by bit, the moved fields put the bits of the word where the format has them.
  rcases known with rfl | rfl | rfl | rfl | rfl | rfl | rfl
  · have step : (immStep instrCode (0, 0) .imm12).1 =
        signExtend 11 (0#32 ||| getBitField 31 20 instrCode <<< 0) := rfl
    rw [step, Field.immediate]
    refine congrArg some (signExtend_of_bits (by decide) fun i bound => ?_)
    simp (disch := decide) only [BitVec.getLsbD_or, BitVec.getLsbD_extractLsb', getLsbD_moved]
    interval_cases i <;> simp
  · have step : (immStep instrCode (0, 0) .imm20).1 =
        0#32 ||| getBitField 31 12 instrCode <<< 12 := rfl
    rw [step, Field.immediate]
    refine congrArg some (BitVec.eq_of_getLsbD_eq fun i bound => ?_)
    simp (disch := decide) only [BitVec.getLsbD_or, BitVec.getLsbD_extractLsb',
      BitVec.getLsbD_append, getLsbD_moved]
    interval_cases i <;> simp
  · have step : (immStep instrCode (0, 0) .jimm20).1 =
        signExtend 20 (0#32 ||| getBitField 31 31 instrCode <<< 20 |||
          getBitField 30 21 instrCode <<< 1 ||| getBitField 20 20 instrCode <<< 11 |||
          getBitField 19 12 instrCode <<< 12) := rfl
    rw [step, Field.immediate]
    refine congrArg some (signExtend_of_bits (by decide) fun i bound => ?_)
    simp (disch := decide) only [BitVec.getLsbD_or, BitVec.getLsbD_extractLsb',
      BitVec.getLsbD_append, getLsbD_moved]
    interval_cases i <;> simp
  · have step : (immStep instrCode (0, 0) .storeimm).1 =
        signExtend 11 (0#32 ||| getBitField 31 25 instrCode <<< 5 |||
          getBitField 11 7 instrCode <<< 0) := rfl
    rw [step, Field.immediate]
    refine congrArg some (signExtend_of_bits (by decide) fun i bound => ?_)
    simp (disch := decide) only [BitVec.getLsbD_or, BitVec.getLsbD_extractLsb',
      BitVec.getLsbD_append, getLsbD_moved]
    interval_cases i <;> simp
  · have step : (immStep instrCode (0, 0) .bimm).1 =
        signExtend 12 (0#32 ||| getBitField 31 31 instrCode <<< 12 |||
          getBitField 30 25 instrCode <<< 5 ||| getBitField 11 8 instrCode <<< 1 |||
          getBitField 7 7 instrCode <<< 11) := rfl
    rw [step, Field.immediate]
    refine congrArg some (signExtend_of_bits (by decide) fun i bound => ?_)
    simp (disch := decide) only [BitVec.getLsbD_or, BitVec.getLsbD_extractLsb',
      BitVec.getLsbD_append, getLsbD_moved]
    interval_cases i <;> simp
  · have step : (immStep instrCode (0, 0) .shamt).1 =
        0#32 ||| getBitField 25 20 instrCode <<< 0 := rfl
    rw [step, Field.immediate]
    refine congrArg some (BitVec.eq_of_getLsbD_eq fun i bound => ?_)
    simp (disch := decide) only [BitVec.getLsbD_or, BitVec.getLsbD_extractLsb',
      BitVec.getLsbD_setWidth, getLsbD_moved]
    interval_cases i <;> simp
  · have step : (immStep instrCode (0, 0) .shamtw).1 =
        0#32 ||| getBitField 24 20 instrCode <<< 0 := rfl
    rw [step, Field.immediate]
    refine congrArg some (BitVec.eq_of_getLsbD_eq fun i bound => ?_)
    simp (disch := decide) only [BitVec.getLsbD_or, BitVec.getLsbD_extractLsb',
      BitVec.getLsbD_setWidth, getLsbD_moved]
    interval_cases i <;> simp

/-- A register member holds the five or three bits of its field. -/
theorem getReg_eq (instrCode : InstrCode) :
    Instr.getReg .rd instrCode = (instrCode.extractLsb' 7 5).setWidth 8 ∧
      Instr.getReg .rs1 instrCode = (instrCode.extractLsb' 15 5).setWidth 8 ∧
      Instr.getReg .rs2 instrCode = (instrCode.extractLsb' 20 5).setWidth 8 ∧
      Instr.getReg .rm instrCode = (instrCode.extractLsb' 12 3).setWidth 8 := by
  -- Each location is one section that is moved nowhere.
  have moved : ∀ (field : Field) (hi lo : Nat), lo ≤ hi → hi < 32 → hi - lo < 8 →
      Instr.getReg field instrCode = (getBitField hi lo instrCode <<< 0).setWidth 8 →
      Instr.getReg field instrCode = (instrCode.extractLsb' lo (hi - lo + 1)).setWidth 8 := by
    intro field hi lo ordered inside narrow read
    rw [read, BitVec.shiftLeft_zero, getBitField_eq_extractLsb _ (by decide) ordered inside]
    apply BitVec.eq_of_getLsbD_eq
    intro i bound
    simp only [BitVec.getLsbD_setWidth]
    grind
  exact ⟨moved .rd 11 7 (by decide) (by decide) (by decide) rfl,
    moved .rs1 19 15 (by decide) (by decide) (by decide) rfl,
    moved .rs2 24 20 (by decide) (by decide) (by decide) rfl,
    moved .rm 14 12 (by decide) (by decide) (by decide) rfl⟩

/-- Five bits of a word are below the number of registers. -/
theorem five_bits (instrCode : InstrCode) (lo : Nat) :
    ((instrCode.extractLsb' lo 5).setWidth 8).toNat < gprNumber := by
  -- Widening does not make the number larger.
  rw [BitVec.toNat_setWidth]
  exact Nat.lt_of_le_of_lt (Nat.mod_le _ _) (instrCode.extractLsb' lo 5).isLt

/-- The fields of a description are found again under its identifier. -/
theorem fieldsOf_described {descr : InstrDescr} (member : descr ∈ instructions) :
    Instr.fieldsOf descr.id = descr.fields := by
  -- Identifiers are distinct, so the search stops at the description itself.
  have found : instructions.find? (fun other => other.id == descr.id) = some descr := by
    obtain ⟨i, bound, rfl⟩ := List.getElem_of_mem member
    refine List.find?_eq_some_iff_getElem.mpr ⟨beq_self_eq_true _, i, bound, rfl, ?_⟩
    intro j before
    -- An earlier description has another identifier.
    simp only [Bool.not_eq_eq_eq_not, Bool.not_true, beq_eq_false_iff_ne]
    intro same
    have early := instructions_nodup.idxOf_getElem j (by simp; omega)
    have late := instructions_nodup.idxOf_getElem i (by simpa using bound)
    rw [List.getElem_map, same] at early
    rw [List.getElem_map] at late
    omega
  rw [Instr.fieldsOf, found]

/-- Each description has its own place in the dispatch table. -/
theorem dispatchTable_described {descr : InstrDescr} (member : descr ∈ instructions) :
    dispatchTable[descr.id.toUnderlying]? =
      some (if descr.id ∈ implementedInstrs then some descr.id else none) := by
  obtain ⟨i, bound, rfl⟩ := List.getElem_of_mem member
  -- The status instruction is not described, so its place is its own.
  have nodup : instrIds.Nodup := by
    refine List.nodup_cons.mpr ⟨fun listed => ?_, instructions_nodup⟩
    obtain ⟨descr, described, status⟩ := List.mem_map.mp listed
    exact described_ne_status descr described status
  -- Identifiers and places are numbered in the same order, after the status instruction.
  have number : instructions[i].id.toUnderlying = i + 1 := by
    have position := nodup.idxOf_getElem (i + 1) (by simp [instrIds]; omega)
    simpa [instrIds, InstrId.toUnderlying] using position
  rw [number, dispatchTable, List.getElem?_cons_succ, List.getElem?_map,
    List.getElem?_eq_getElem bound]
  rfl

/-- Every implemented instruction has a handler. -/
theorem simInstr_isSome : ∀ id ∈ implementedInstrs, (simInstr id).isSome := by
  decide

/-- The table gives implemented instructions their own handlers, and the others null pointers. -/
theorem dispatch_described {descr : InstrDescr} (member : descr ∈ instructions) :
    dispatch descr.id = if descr.id ∈ implementedInstrs then simInstr descr.id else none := by
  rw [dispatch, dispatchTable_described member]
  -- The place is either the instruction's own or a null pointer.
  split <;> rename_i found <;> split at found <;> simp_all

/-- What a word that an instruction encodes decodes to. -/
structure DecodesTo (descr : InstrDescr) (instrCode : InstrCode) (instr : Instr) : Prop where
  id : instr.id = descr.id
  /-- Listed registers are read from their own bits. -/
  rd : .rd ∈ descr.fields → instr.rd = (instrCode.extractLsb' 7 5).setWidth 8
  rs1 : .rs1 ∈ descr.fields → instr.rs1 = (instrCode.extractLsb' 15 5).setWidth 8
  rs2 : .rs2 ∈ descr.fields → instr.rs2 = (instrCode.extractLsb' 20 5).setWidth 8
  rm : .rm ∈ descr.fields → instr.rm = (instrCode.extractLsb' 12 3).setWidth 8
  /-- Register numbers are in range. -/
  regs : instr.rd.toNat < gprNumber ∧ instr.rs1.toNat < gprNumber ∧ instr.rs2.toNat < gprNumber
  /-- A listed immediate has the value of its format, and without one the immediate is zero. -/
  imm : ∀ field ∈ descr.fields, ∀ imm, field.immediate instrCode = some imm → instr.imm = imm
  noImm : (∀ field ∈ descr.fields, field.immediate instrCode = none) → instr.imm = 0
  /-- An implemented instruction is dispatched to its own handler. -/
  handler : descr.id ∈ implementedInstrs →
    dispatch instr.id = simInstr descr.id ∧ (simInstr descr.id).isSome

/-- A word that decodes to a described instruction has the operands of its formats. -/
theorem decodesTo_of_id {descr : InstrDescr} {instrCode : InstrCode}
    (member : descr ∈ instructions) (id : (Instr.decode instrCode).id = descr.id) :
    DecodesTo descr instrCode (Instr.decode instrCode) := by
  -- The leaf that was reached names the description, whose fields are then assigned.
  have reached := (decode_id_iff instrCode (described_ne_status descr member)).mp id
  -- The identifier is that of the leaf, so the fields are those of its description.
  have decoded : Instr.decode instrCode =
      Instr.fieldAssigning descr.id descr.fields instrCode := by
    simp only [Instr.decode, reached, fieldsOf_described member]
  obtain ⟨rdBits, rs1Bits, rs2Bits, rmBits⟩ := getReg_eq instrCode
  have reg := fieldAssigning_reg descr.id descr.fields instrCode
  rw [← decoded] at reg
  have rd := Option.some.inj (reg .rd (by decide))
  have rs1 := Option.some.inj (reg .rs1 (by decide))
  have rs2 := Option.some.inj (reg .rs2 (by decide))
  have rm := Option.some.inj (reg .rm (by decide))
  have imm := fieldAssigning_imm descr.id descr.fields instrCode
  rw [← decoded] at imm
  refine
    { id := id
      rd := fun listed => by rw [rd, if_pos listed, rdBits]
      rs1 := fun listed => by rw [rs1, if_pos listed, rs1Bits]
      rs2 := fun listed => by rw [rs2, if_pos listed, rs2Bits]
      rm := fun listed => by rw [rm, if_pos listed, rmBits]
      regs := ?_
      imm := ?_
      noImm := ?_
      handler := ?_ }
  · -- Five bits, or the zero of a register that is not listed.
    rw [rd, rs1, rs2, rdBits, rs1Bits, rs2Bits]
    refine ⟨?_, ?_, ?_⟩ <;> split <;> first | exact five_bits _ _ | decide
  · intro field listed value immediate
    -- Only a field with a format has an immediate.
    have known : field ∈ Instr.knownImms := by
      cases field <;> first | decide | cases immediate
    -- It is the only immediate field of the description.
    have single : descr.fields.filter (· ∈ Instr.knownImms) = [field] := by
      have inside : field ∈ descr.fields.filter (· ∈ Instr.knownImms) := by simp [listed, known]
      obtain ⟨only, same⟩ := List.length_eq_one_iff.mp
        (Nat.le_antisymm (one_immediate descr member) (List.length_pos_of_mem inside))
      rw [same, List.mem_singleton] at inside
      rw [same, inside]
    rw [imm, single, List.foldl_cons, List.foldl_nil]
    rw [immStep_immediate instrCode field known] at immediate
    exact Option.some.inj immediate
  · intro missing
    -- A field without an immediate is no immediate field.
    have empty : descr.fields.filter (· ∈ Instr.knownImms) = [] := by
      refine List.filter_eq_nil_iff.mpr fun field listed known => ?_
      have immediate := immStep_immediate instrCode field (by simpa using known)
      rw [missing field listed] at immediate
      cases immediate
    rw [imm, empty]
    rfl
  · -- An implemented instruction has its own place, and a handler is written for it.
    intro implemented
    rw [id, dispatch_described member, if_pos implemented]
    exact ⟨rfl, simInstr_isSome _ implemented⟩

/-- Every word of a described instruction decodes to it, with the operands of its formats. -/
theorem decode_described {descr : InstrDescr} {instrCode : InstrCode}
    (member : descr ∈ instructions) (encodes : descr.Encodes instrCode) :
    DecodesTo descr instrCode (Instr.decode instrCode) :=
  decodesTo_of_id member (decode_id_of_encodes member encodes)

/-- The word of `addi x20, x2, 7` decodes to its operands and its handler. -/
theorem decode_described_addi :
    DecodesTo ⟨.addi, 0x707f, 0x13, [.rd, .rs1, .imm12]⟩ 0x00710a13 (Instr.decode 0x00710a13) :=
  decode_described (by decide +kernel) (by decide)

end RiscvSim

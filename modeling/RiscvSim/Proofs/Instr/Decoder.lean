import RiscvSim.Proofs.Instr.Leaves

/-! Which words the decoder accepts, and the words that it accepts by mistake. -/

namespace RiscvSim

/-- The nested switches select by the fields of the word. -/
theorem handleNode_eq_select (instrCode : InstrCode) {tree : DecisionTree InstrId}
    (good : tree.wellFormed 32 = true) : Instr.handleNode instrCode tree = tree.select instrCode := by
  -- The induction follows the switches, case by case.
  induction tree with
  | fail => rfl
  | leaf id => rfl
  | case msb lsb key hit miss hitIh missIh =>
    simp only [DecisionTree.wellFormed, Bool.and_eq_true, decide_eq_true_eq] at good
    obtain ⟨⟨⟨⟨⟨ordered, inside⟩, _⟩, _⟩, hitGood⟩, missGood⟩ := good
    -- The field of the source is the quotient that the tree is defined with.
    rw [Instr.handleNode, DecisionTree.select, hitIh hitGood, missIh missGood,
      toNat_getBitField instrCode (by decide) ordered inside]

/-- Assigning fields never changes the identifier. -/
theorem assignField_id (instrCode : InstrCode) (state : Instr × Nat) (field : Field) :
    (Instr.assignField instrCode state field).1.id = state.1.id := by
  -- Every case replaces a register number or the immediate.
  cases field <;> rfl

/-- An instruction keeps the identifier it is decoded as. -/
@[simp] theorem fieldAssigning_id (id : InstrId) (fields : List Field) (instrCode : InstrCode) :
    (Instr.fieldAssigning id fields instrCode).id = id := by
  -- By induction on the listed fields, for any state they are assigned to.
  have kept : ∀ state : Instr × Nat,
      (fields.foldl (Instr.assignField instrCode) state).1.id = state.1.id := by
    induction fields with
    | nil => intro state; rfl
    | cons field rest ih =>
      intro state
      rw [List.foldl_cons, ih, assignField_id]
  exact kept _

/-- No leaf of the tree is a status. -/
theorem leaf_ne_status {tests : List (Pattern 32)} {id : InstrId}
    (path : (tests, id) ∈ decodertree.paths 32) : id ≠ .simStatusInstr := by
  obtain ⟨descr, described, rfl, _⟩ := leaf_described _ path
  exact described_ne_status descr described

/-- The tree leads a word to a leaf exactly when the word passes the tests of a path to it. -/
theorem handleNode_eq_some_iff (instrCode : InstrCode) (id : InstrId) :
    Instr.handleNode instrCode decodertree = some id ↔
      ∃ tests, (tests, id) ∈ decodertree.paths 32 ∧ ∀ test ∈ tests, test.Matches instrCode := by
  -- The tree is well formed, so its leaves are decided by their paths.
  rw [handleNode_eq_select instrCode decodertree_wellFormed,
    DecisionTree.select_eq_some_iff decodertree_wellFormed]

/-- A word decodes to an instruction exactly when the tree leads it to that instruction. -/
theorem decode_id_iff (instrCode : InstrCode) {id : InstrId} (instruction : id ≠ .simStatusInstr) :
    (Instr.decode instrCode).id = id ↔ Instr.handleNode instrCode decodertree = some id := by
  unfold Instr.decode
  cases Instr.handleNode instrCode decodertree with
  -- A word that no case matches decodes to a status.
  | none => simp [instruction.symm]
  | some other => simp

/-- A word with the bits that an instruction fixes decodes to that instruction. -/
theorem decode_id_of_encodes {instrCode : InstrCode} {descr : InstrDescr}
    (member : descr ∈ instructions) (encodes : descr.Encodes instrCode) :
    (Instr.decode instrCode).id = descr.id := by
  rw [decode_id_iff _ (described_ne_status descr member), handleNode_eq_some_iff]
  obtain ⟨⟨tests, id⟩, path, rfl, implied⟩ := described_reached descr member
  -- The fixed bits decide every test on the way.
  exact ⟨tests, path, fun test inTests => Pattern.matches_of_implies (implied test inTests) encodes⟩

/-- A word that decodes to a status decodes to that of an undecodable word. -/
theorem decode_of_status {instrCode : InstrCode}
    (status : (Instr.decode instrCode).id = .simStatusInstr) :
    Instr.decode instrCode = Instr.statusInstr .simNotImplementedInstr := by
  -- A status is decoded only where no case matches.
  unfold Instr.decode at status ⊢
  cases reached : Instr.handleNode instrCode decodertree with
  | none => rfl
  | some id =>
    rw [reached] at status
    -- A word that reaches a leaf would decode to the leaf's instruction, which is no status.
    obtain ⟨tests, path, _⟩ := (handleNode_eq_some_iff _ _).mp reached
    exact absurd (by simpa using status) (leaf_ne_status path)

/-- The decoder is right about a word: it accepts it only for an instruction that encodes it. -/
def DecodesSoundly (instrCode : InstrCode) : Prop :=
  ((Instr.decode instrCode).id ≠ .simStatusInstr →
    ∃ descr ∈ instructions, descr.id = (Instr.decode instrCode).id ∧ descr.Encodes instrCode) ∧
  ((∀ descr ∈ instructions, ¬descr.Encodes instrCode) →
    Instr.decode instrCode = Instr.statusInstr .simNotImplementedInstr)

/-- The decoder is right about a word exactly when no lax leaf catches it by mistake. -/
theorem decodesSoundly_iff (instrCode : InstrCode) :
    DecodesSoundly instrCode ↔
      ∀ lax ∈ laxLeaves, lax.tested.Matches instrCode → lax.untested.Matches instrCode := by
  constructor
  · rintro ⟨sound, _⟩ lax member tested
    obtain ⟨⟨⟨tests, id⟩, path, rfl, implied⟩, fixes⟩ := lax_reached lax member
    -- The word reaches the lax leaf, so the instruction of the leaf has to encode it.
    have reached : Instr.handleNode instrCode decodertree = some lax.id :=
      (handleNode_eq_some_iff _ _).mpr
        ⟨tests, path, fun test inTests => Pattern.matches_of_implies (implied test inTests) tested⟩
    have instruction := leaf_ne_status path
    have decoded := (decode_id_iff instrCode instruction).mpr reached
    obtain ⟨other, otherDescribed, otherSame, encodes⟩ := sound (decoded ▸ instruction)
    exact Pattern.matches_of_implies (fixes other otherDescribed (otherSame.trans decoded)) encodes
  · intro strict
    -- Whatever leaf a word reaches, its instruction encodes the word.
    have sound : (Instr.decode instrCode).id ≠ .simStatusInstr → ∃ descr ∈ instructions,
        descr.id = (Instr.decode instrCode).id ∧ descr.Encodes instrCode := by
      intro instruction
      obtain ⟨tests, path, holds⟩ :=
        (handleNode_eq_some_iff _ _).mp ((decode_id_iff instrCode instruction).mp rfl)
      have merged := Pattern.merge_matches holds
      obtain ⟨descr, described, same, implied | ⟨lax, member, leads, implied⟩⟩ :=
        leaf_described _ path
      · exact ⟨descr, described, same, Pattern.matches_of_implies implied merged⟩
      · -- A lax leaf takes only words that have its untested bits as well.
        have tested := Pattern.matches_of_implies leads merged
        have bits : ∀ pattern ∈ [lax.tested, lax.untested], pattern.Matches instrCode := by
          simp [tested, strict lax member tested]
        have both := Pattern.merge_matches bits
        exact ⟨descr, described, same, Pattern.matches_of_implies implied both⟩
    refine ⟨sound, fun unmatched => ?_⟩
    -- A word that no instruction encodes cannot reach a leaf, so no case matches it.
    by_cases instruction : (Instr.decode instrCode).id = .simStatusInstr
    · exact decode_of_status instruction
    · obtain ⟨descr, described, _, encodes⟩ := sound instruction
      exact absurd encodes (unmatched descr described)

/-- A word with the opcode of `jalr` and a reserved function code is accepted all the same. -/
theorem not_decodesSoundly_jalr : ¬DecodesSoundly 0x00001067 := by
  rintro ⟨sound, _⟩
  -- The word decodes to `jalr`, whose function code it does not have.
  have unencoded : ¬∃ descr ∈ instructions, descr.id = (Instr.decode 0x00001067).id ∧
      descr.Encodes 0x00001067 := by decide +kernel
  exact unencoded (sound (by decide +kernel))

end RiscvSim

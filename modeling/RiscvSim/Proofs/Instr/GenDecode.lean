import RiscvSim.Instr.GenDecode
import RiscvSim.Proofs.Instr.Decoder

/-! The generated code decodes every word as the description says. -/

namespace RiscvSim

open GenDecode

mutual

/-- The instruction that a word leads to from a node. -/
def TreeNode.select (instrCode : InstrCode) : TreeNode → Option (InstrId × List Field)
  | .instr id fields => some (id, fields)
  | .range msb lsb nodes => nodes.select instrCode (getBitField msb lsb instrCode).toNat

/-- The instruction that a word leads to from the node of a value. -/
def TreeNodes.select (instrCode : InstrCode) (value : Nat) :
    TreeNodes → Option (InstrId × List Field)
  | .nil => none
  | .cons key node rest =>
    if key = value then node.select instrCode else rest.select instrCode value

end

/-- The instruction that a described tree makes of a word. -/
def TreeNode.decode (node : TreeNode) (instrCode : InstrCode) : Instr :=
  match node.select instrCode with
  | some (id, fields) => Instr.fieldAssigning id fields instrCode
  | none => {}

namespace GenDecode

variable (instrCode : InstrCode)

/-- The sections of an immediate are taken in one after the other. -/
theorem foldl_orImm (sections : List BitSection) (instr : Instr) :
    (sections.map Assignment.orImm).foldl (fun instr action => action.perform instrCode instr)
        instr =
      { instr with
        imm := sections.foldl (fun imm bits => imm ||| Instr.getBinValue bits instrCode)
          instr.imm } := by
  induction sections generalizing instr with
  | nil => rfl
  | cons bits sections ih => exact ih _

/-- An immediate field is assigned as all of them are. -/
theorem assignField_immediate {field : Field} (immediate : field ∈ Instr.knownImms)
    (instr : Instr) (extendFrom : Nat) :
    Instr.assignField instrCode (instr, extendFrom) field =
      let imm := field.location.foldl
        (fun imm bits => imm ||| Instr.getBinValue bits instrCode) instr.imm
      let extendFrom := field.location.foldl (fun top bits => max top bits.fromBit) extendFrom
      ({ instr with
        imm := if field ∉ Instr.immsNoExtend ∧ extendFrom ≤ 30 then signExtend extendFrom imm
          else imm }, extendFrom) := by
  cases field <;> first | rfl | exact absurd immediate (by decide)

/-- The statements for the listed fields assign them as the members are assigned. -/
theorem foldl_generateFields (fields : List Field) (extendFrom : Nat) (instr : Instr) :
    (generateFields fields extendFrom).foldl (fun instr action => action.perform instrCode instr)
        instr =
      (fields.foldl (Instr.assignField instrCode) (instr, extendFrom)).1 := by
  induction fields generalizing extendFrom instr with
  | nil => rfl
  | cons field fields ih =>
    rw [List.foldl_cons, generateFields]
    by_cases register : field ∈ knownRegs
    · rw [if_pos register, List.foldl_append, ih]
      cases field <;> first | rfl | exact absurd register (by decide)
    · rw [if_neg register]
      by_cases immediate : field ∈ Instr.knownImms
      · rw [if_pos immediate, assignField_immediate instrCode immediate]
        dsimp only
        rw [List.foldl_append, List.foldl_append, foldl_orImm, ih]
        -- The statement that extends the value is there exactly when the value is extended.
        split <;> rfl
      · rw [if_neg immediate, ih]
        have other : Instr.assignField instrCode (instr, extendFrom) field = (instr, extendFrom) := by
          cases field <;>
            first
            | rfl
            | exact absurd register (by decide)
            | exact absurd immediate (by decide)
        rw [other]

/-- What the code of an instruction, if there is one, makes of the members. -/
def fill (leaf : Option (InstrId × List Field)) (instr : Instr) : Instr :=
  match leaf with
  | some (id, fields) =>
    (generateFieldAssigning id fields).foldl
      (fun instr action => action.perform instrCode instr) instr
  | none => instr

/-- From the defaults, the statements of an instruction fill it as its fields say. -/
theorem fill_default (node : TreeNode) : fill instrCode (node.select instrCode) {} =
    node.decode instrCode := by
  unfold fill TreeNode.decode
  cases node.select instrCode with
  | none => rfl
  | some leaf =>
    obtain ⟨id, fields⟩ := leaf
    dsimp only
    rw [generateFieldAssigning, List.foldl_cons, List.foldl_cons, foldl_generateFields]
    rfl

/-- The code of a node has no label of the switch around it. -/
theorem execute_label (node : TreeNode) (rest : SwitchCode Assignment) {entry : SwitchEntry}
    (label : entry ≠ .top) (instr : Instr) :
    execute instrCode (generateHandleNode node rest) entry instr =
      execute instrCode rest entry instr := by
  cases node with
  | instr id fields => exact SwitchCode.exec_acts_label _ _ _ _ label instr
  | range msb lsb nodes =>
    cases entry with
    | top => exact absurd rfl label
    | case value => rfl
    | default => rfl

mutual

/-- The code of a node fills the members for the word, and goes on with what follows. -/
theorem execute_generateHandleNode (node : TreeNode) (rest : SwitchCode Assignment)
    (instr : Instr) :
    execute instrCode (generateHandleNode node rest) .top instr =
      execute instrCode rest .top (fill instrCode (node.select instrCode) instr) := by
  cases node with
  | instr id fields => exact SwitchCode.exec_acts _ _ _ _ instr
  | range msb lsb nodes =>
    obtain ⟨other, found⟩ := execute_generateHandleNodes nodes instr
    have left := found (getBitField msb lsb instrCode).toNat
    unfold execute at left other ⊢
    rw [generateHandleNode, SwitchCode.exec, other, TreeNode.select, ← left]
    -- The code that the default label leads to changes nothing.
    cases SwitchCode.exec (Assignment.perform instrCode)
      (fun msb lsb => (getBitField msb lsb instrCode).toNat) (generateHandleNodes nodes)
      (.case (getBitField msb lsb instrCode).toNat) instr <;> rfl

/-- A value leads to the code of its node and out of the switch, and any other one changes nothing.
-/
theorem execute_generateHandleNodes (nodes : TreeNodes) (instr : Instr) :
    execute instrCode (generateHandleNodes nodes) .default instr = some instr ∧
      ∀ value, (execute instrCode (generateHandleNodes nodes) (.case value) instr).getD instr =
        fill instrCode (nodes.select instrCode value) instr := by
  cases nodes with
  | nil => exact ⟨rfl, fun _ => rfl⟩
  | cons key node rest =>
    obtain ⟨other, found⟩ := execute_generateHandleNodes rest instr
    have skip {entry : SwitchEntry} (label : entry ≠ .top) :
        execute instrCode (generateHandleNode node (.brk (generateHandleNodes rest))) entry instr =
          execute instrCode (.brk (generateHandleNodes rest)) entry instr :=
      execute_label instrCode node _ label instr
    refine ⟨(skip (by decide)).trans other, fun value => ?_⟩
    rw [TreeNodes.select]
    by_cases same : key = value
    · -- The code of the node is followed by a break.
      have here := execute_generateHandleNode node (.brk (generateHandleNodes rest)) instr
      unfold execute at here ⊢
      rw [generateHandleNodes, SwitchCode.exec, if_pos same, if_pos same, here]
      rfl
    · have label : SwitchEntry.case value ≠ .top := by simp
      have next := skip label
      have later := found value
      unfold execute at next later ⊢
      rw [generateHandleNodes, SwitchCode.exec, if_neg same, if_neg same, next]
      exact later

end

/-- The generated constructor makes of a word what the description does. -/
theorem construct_eq (node : TreeNode) :
    construct (generateDecoderTree node) instrCode = some (node.decode instrCode) :=
  (execute_generateHandleNode instrCode node .nil {}).trans
    (congrArg some (fill_default instrCode node))

end GenDecode

/-- The described tree has uniform switches. -/
theorem decodertree_uniform : decodertree.uniform = true := by decide +kernel

/-- A described tree leads words to the instructions that the switches lead them to. -/
theorem select_ofTree (instrCode : InstrCode) {tree : DecisionTree InstrId}
    (uniform : tree.uniform = true) :
    (TreeNode.ofTree tree).1.select instrCode =
        (Instr.handleNode instrCode tree).map (fun id => (id, Instr.fieldsOf id)) ∧
      ∀ msb lsb, tree.continues msb lsb = true →
        (TreeNode.ofTree tree).2.select instrCode (getBitField msb lsb instrCode).toNat =
          (Instr.handleNode instrCode tree).map (fun id => (id, Instr.fieldsOf id)) := by
  induction tree with
  | fail => exact ⟨rfl, fun _ _ _ => rfl⟩
  | leaf id => exact ⟨rfl, fun _ _ continues => absurd continues (by simp [DecisionTree.continues])⟩
  | case msb lsb key hit miss hitIh missIh =>
    simp only [DecisionTree.uniform, Bool.and_eq_true] at uniform
    obtain ⟨⟨hitUniform, missUniform⟩, continues⟩ := uniform
    have taken := (hitIh hitUniform).1
    have passed := (missIh missUniform).2 msb lsb continues
    -- The first case decides, or the later ones do.
    have nodes : (TreeNode.ofTree (.case msb lsb key hit miss)).2.select instrCode
        (getBitField msb lsb instrCode).toNat =
          (Instr.handleNode instrCode (.case msb lsb key hit miss)).map
            (fun id => (id, Instr.fieldsOf id)) := by
      rw [TreeNode.ofTree, TreeNodes.select, Instr.handleNode]
      by_cases same : key = (getBitField msb lsb instrCode).toNat
      · rw [if_pos same, if_pos same.symm, taken]
      · rw [if_neg same, if_neg (Ne.symm same), passed]
    refine ⟨nodes, fun otherMsb otherLsb same => ?_⟩
    simp only [DecisionTree.continues, Bool.and_eq_true, beq_iff_eq] at same
    rw [← same.1, ← same.2]
    exact nodes

/-- The description makes of a word what the decoder does. -/
theorem decode_description (instrCode : InstrCode) :
    description.decode instrCode = Instr.decode instrCode := by
  have selected := (select_ofTree instrCode decodertree_uniform).1
  simp only [TreeNode.decode, description, selected, Instr.decode]
  cases Instr.handleNode instrCode decodertree <;> rfl

/-- The code that is generated for a description decodes every word as the description does.

So the code for the described instructions is the decoder.
-/
theorem GenDecode.generated_decodes (instrCode : InstrCode) :
    (∀ node : TreeNode,
      construct (generateDecoderTree node) instrCode = some (node.decode instrCode)) ∧
    construct (generateDecoderTree description) instrCode = some (Instr.decode instrCode) :=
  ⟨construct_eq instrCode, (construct_eq instrCode description).trans
    (congrArg some (decode_description instrCode))⟩

end RiscvSim

import RiscvSim.Instr.Decode
import RiscvSim.Lib.SwitchCode

/-! The generator of the decoder: the code that it writes for a description. -/

namespace RiscvSim

mutual

/-- A node of a described decoder tree. -/
inductive TreeNode where
  /-- An instruction with its listed fields. -/
  | instr (id : InstrId) (fields : List Field)
  /-- A range of bits, with a node for each listed value of it. -/
  | range (msb lsb : Nat) (nodes : TreeNodes)

/-- The nodes under a range, with their values. -/
inductive TreeNodes where
  | nil
  | cons (key : Nat) (node : TreeNode) (rest : TreeNodes)

end

/-- The described tree of nested switches as a node, and as the nodes of the switch around it. -/
def TreeNode.ofTree : DecisionTree InstrId → TreeNode × TreeNodes
  | .fail => (.range 0 0 .nil, .nil)
  | .leaf id => (.instr id (Instr.fieldsOf id), .nil)
  | .case msb lsb key hit miss =>
    let nodes := .cons key (ofTree hit).1 (ofTree miss).2
    (.range msb lsb nodes, nodes)

/-- The decoder tree of the description. -/
def description : TreeNode := (TreeNode.ofTree decodertree).1

namespace GenDecode

/-- The statements that the generator writes to fill an instruction. -/
inductive Assignment where
  | id (id : InstrId)
  | clearImm
  /-- Assign a section to the member of a register field. -/
  | reg (field : Field) (bits : BitSection)
  /-- Take a section into the immediate. -/
  | orImm (bits : BitSection)
  /-- Sign-extend the immediate. -/
  | extendImm (extendFrom : Nat)
  deriving DecidableEq, Repr

/-- What a written statement does to the members of an instruction. -/
def Assignment.perform (instrCode : InstrCode) : Assignment → Instr → Instr
  | id named, instr => { instr with id := named }
  | clearImm, instr => { instr with imm := 0 }
  | reg .rd bits, instr => { instr with rd := (Instr.getBinValue bits instrCode).setWidth 8 }
  | reg .rs1 bits, instr => { instr with rs1 := (Instr.getBinValue bits instrCode).setWidth 8 }
  | reg .rs2 bits, instr => { instr with rs2 := (Instr.getBinValue bits instrCode).setWidth 8 }
  | reg .rm bits, instr => { instr with rm := (Instr.getBinValue bits instrCode).setWidth 8 }
  -- No other field has a member of its own.
  | reg _ _, instr => instr
  | orImm bits, instr => { instr with imm := instr.imm ||| Instr.getBinValue bits instrCode }
  | extendImm extendFrom, instr => { instr with imm := signExtend extendFrom instr.imm }

/-- The register fields. -/
def knownRegs : List Field := [.rd, .rs1, .rs2, .rm]

/-- The statements for the listed fields, with the highest value bit seen so far. -/
def generateFields : List Field → Nat → List Assignment
  | [], _ => []
  | field :: fields, extendFrom =>
    if field ∈ knownRegs then
      -- Only the first section counts.
      (field.location.take 1).map (.reg field) ++ generateFields fields extendFrom
    else if field ∈ Instr.knownImms then
      let extendFrom := field.location.foldl (fun top bits => max top bits.fromBit) extendFrom
      let extended : List Assignment :=
        if field ∉ Instr.immsNoExtend ∧ extendFrom ≤ 30 then [.extendImm extendFrom] else []
      field.location.map .orImm ++ extended ++ generateFields fields extendFrom
    else generateFields fields extendFrom

/-- The statements that fill an instruction. -/
def generateFieldAssigning (id : InstrId) (fields : List Field) : List Assignment :=
  .id id :: .clearImm :: generateFields fields 0

mutual

/-- Write the code of a node in front of what follows it. -/
def generateHandleNode : TreeNode → SwitchCode Assignment → SwitchCode Assignment
  | .instr id fields, rest => .acts (generateFieldAssigning id fields) rest
  | .range msb lsb nodes, rest => .switch msb lsb (generateHandleNodes nodes) rest

/-- Write the code between the braces of a switch. -/
def generateHandleNodes : TreeNodes → SwitchCode Assignment
  | .nil => .default (.brk .nil)
  | .cons key node rest =>
    .case key (generateHandleNode node (.brk (generateHandleNodes rest)))

end

/-- The body of the constructor that decodes a word. -/
def generateDecoderTree (decodertree : TreeNode) : SwitchCode Assignment :=
  generateHandleNode decodertree .nil

/-- The members in which generated code is left, unless it has no such entry. -/
def execute (instrCode : InstrCode) (body : SwitchCode Assignment) (entry : SwitchEntry)
    (instr : Instr) : Option Instr :=
  body.exec (Assignment.perform instrCode)
    (fun msb lsb => (getBitField msb lsb instrCode).toNat) entry instr

/-- What the constructor makes of a word, from the defaults of the members. -/
def construct (body : SwitchCode Assignment) (instrCode : InstrCode) : Option Instr :=
  execute instrCode body .top {}

end GenDecode

end RiscvSim

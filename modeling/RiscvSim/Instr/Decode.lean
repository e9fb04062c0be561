import RiscvSim.Instr.Table

/-! Decoded instructions and the generated decoder. -/

namespace RiscvSim

namespace SimStatus

/-- The status codes in the order of their numbers. -/
def codes : List SimStatus :=
  [.ok, .csrNotSupported, .physMemPageAlignError, .physMemAccessFault, .mmu64PageFault,
    .mapperAlreadyMapped, .mapperTableRegionEnd, .mapperTableRegionPageMapped, .simExit,
    .simNotImplementedInstr, .simPcAlignError, .simUnalignedLoad, .simUnalignedStore]

/-- The number of a status. -/
def toUnderlying (status : SimStatus) : BitVec 32 :=
  BitVec.ofNat 32 (codes.idxOf status)

/-- The status with a number. -/
def ofUnderlying (value : BitVec 32) : Option SimStatus := codes[value.toNat]?

/-- A status is found again under its number. -/
@[simp] theorem ofUnderlying_toUnderlying (status : SimStatus) :
    ofUnderlying status.toUnderlying = some status := by
  -- No status stands twice in the list.
  cases status <;> decide

end SimStatus

/-- A decoded instruction. -/
structure Instr where
  id : InstrId := .simStatusInstr
  rd : BitVec 8 := 0
  rs1 : BitVec 8 := 0
  rs2 : BitVec 8 := 0
  /-- The immediate, or the number of the status of a status instruction. -/
  imm : BitVec 32 := SimStatus.simNotImplementedInstr.toUnderlying
  rm : BitVec 8 := 0
  deriving DecidableEq, Repr

namespace Instr

/-- An instruction that ends a block with a status. -/
def statusInstr (status : SimStatus) : Instr :=
  { imm := status.toUnderlying }

/-- The status of a status instruction. -/
def status (instr : Instr) : Except Abort SimStatus :=
  if instr.id = .simStatusInstr then
    match SimStatus.ofUnderlying instr.imm with
    | some status => .ok status
    -- Status instructions are created from a status, so every number is one of the codes.
    | none => .error .assertion
  else .error .assertion

/-- A status instruction gives its status back. -/
@[simp] theorem status_statusInstr (status : SimStatus) :
    (statusInstr status).status = .ok status := by
  -- The number that was put in is the one that is looked up.
  simp [Instr.status, statusInstr]

/-- The immediate fields. -/
def knownImms : List Field := [.imm12, .imm20, .jimm20, .storeimm, .bimm, .shamt, .shamtw]

/-- The immediate fields that are not sign-extended. -/
def immsNoExtend : List Field := [.shamt, .shamtw]

/-- The bits of a section, moved to their place in the value. -/
def getBinValue (bits : BitSection) (instrCode : InstrCode) : InstrCode :=
  getBitField bits.msb bits.lsb instrCode <<< bits.toBit

/-- The value of a register field, whose location is its first section. -/
def getReg (field : Field) (instrCode : InstrCode) : BitVec 8 :=
  match field.location with
  | [] => 0
  | bits :: _ => (getBinValue bits instrCode).setWidth 8

/-- Assign one listed field, keeping the highest value bit seen so far. -/
def assignField (instrCode : InstrCode) (state : Instr × Nat) (field : Field) : Instr × Nat :=
  let (instr, extendFrom) := state
  match field with
  | .rd => ({ instr with rd := getReg .rd instrCode }, extendFrom)
  | .rs1 => ({ instr with rs1 := getReg .rs1 instrCode }, extendFrom)
  | .rs2 => ({ instr with rs2 := getReg .rs2 instrCode }, extendFrom)
  | .rm => ({ instr with rm := getReg .rm instrCode }, extendFrom)
  | field =>
    if field ∈ knownImms then
      -- An immediate takes in all its sections, and is extended from the highest bit of them.
      let imm := field.location.foldl (fun imm bits => imm ||| getBinValue bits instrCode) instr.imm
      let extendFrom := field.location.foldl (fun top bits => max top bits.fromBit) extendFrom
      let imm :=
        if field ∉ immsNoExtend ∧ extendFrom ≤ 30 then signExtend extendFrom imm else imm
      ({ instr with imm := imm }, extendFrom)
    -- Other fields are not decoded.
    else state

/-- Assign the listed fields of an instruction. -/
def fieldAssigning (id : InstrId) (fields : List Field) (instrCode : InstrCode) : Instr :=
  (fields.foldl (assignField instrCode) ({ id := id, imm := 0 }, 0)).1

/-- The instruction that the nested switches of the decoder tree lead to. -/
def handleNode (instrCode : InstrCode) : DecisionTree InstrId → Option InstrId
  | .fail => none
  | .leaf id => some id
  | .case msb lsb key hit miss =>
    if (getBitField msb lsb instrCode).toNat = key then handleNode instrCode hit
    else handleNode instrCode miss

/-- The listed fields of an instruction. -/
def fieldsOf (id : InstrId) : List Field :=
  match instructions.find? (fun descr => descr.id == id) with
  | some descr => descr.fields
  | none => []

/-- Decode an instruction word. -/
def decode (instrCode : InstrCode) : Instr :=
  match handleNode instrCode decodertree with
  | some id => fieldAssigning id (fieldsOf id) instrCode
  -- No case assigns anything, so the members keep their defaults.
  | none => {}

end Instr

end RiscvSim

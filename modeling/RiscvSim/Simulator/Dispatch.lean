import RiscvSim.Simulator.SimInstr

/-! The generated dispatch table. -/

namespace RiscvSim

/-- The instructions that the table gets handlers for. -/
def implementedInstrs : List InstrId :=
  [.add, .sub, .slt, .sltu, .and, .or, .xor,
    .addi, .slti, .sltiu, .andi, .ori, .xori,
    .addiw, .slli, .srli, .srai, .slliw, .srliw,
    .sraiw, .lui, .auipc, .sll, .srl, .sra, .addw,
    .subw, .sllw, .srlw, .sraw, .ld, .lw, .lwu,
    .lh, .lhu, .lb, .lbu, .sd, .sw, .sh, .sb,
    .jal, .jalr, .beq, .bne, .blt, .bltu, .bge,
    .bgeu, .ecall]

/-- The identifiers in the order of their numbers. -/
def instrIds : List InstrId := .simStatusInstr :: instructions.map InstrDescr.id

/-- The number of an identifier. -/
def InstrId.toUnderlying (id : InstrId) : Nat := instrIds.idxOf id

/-- The instruction whose handler stands in each place of the table, or a null pointer. -/
def dispatchTable : List (Option InstrId) :=
  some .simStatusInstr ::
    instructions.map fun descr => if descr.id ∈ implementedInstrs then some descr.id else none

/-- The handler that the table gives for an identifier. -/
def dispatch (id : InstrId) : Option Handler :=
  match dispatchTable[id.toUnderlying]? with
  | some (some named) => simInstr named
  -- A null pointer; every number has a place in the table.
  | _ => none

end RiscvSim

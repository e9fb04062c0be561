import RiscvSim.Common
import RiscvSim.Lib.DecisionTree

/-! The instruction description: identifiers, field locations, encodings and the decoder tree. -/

namespace RiscvSim

/-- The instruction identifiers, numbered in the order of the description. -/
inductive InstrId where
  /-- A status instead of an instruction. -/
  | simStatusInstr
  | beq | bne | blt | bge | bltu | bgeu | jalr | jal | lui | auipc | addi | slli | slti | sltiu
  | xori | srli | srai | ori | andi | add | sub | sll | slt | sltu | xor | srl | sra | or | and
  | addiw | slliw | srliw | sraiw | addw | subw | sllw | srlw | sraw | lb | lh | lw | ld | lbu
  | lhu | lwu | sb | sh | sw | sd | fence | fenceI | mul | mulh | mulhsu | mulhu | div | divu
  | rem | remu | mulw | divw | divuw | remw | remuw | amoaddW | amoxorW | amoorW | amoandW
  | amominW | amomaxW | amominuW | amomaxuW | amoswapW | lrW | scW | amoaddD | amoxorD | amoorD
  | amoandD | amominD | amomaxD | amominuD | amomaxuD | amoswapD | lrD | scD | ecall | ebreak
  | uret | sret | mret | dret | sfenceVma | wfi | csrrw | csrrs | csrrc | csrrwi | csrrsi
  | csrrci | hfenceVvma | hfenceGvma | faddS | fsubS | fmulS | fdivS | fsgnjS | fsgnjnS | fsgnjxS
  | fminS | fmaxS | fsqrtS | faddD | fsubD | fmulD | fdivD | fsgnjD | fsgnjnD | fsgnjxD | fminD
  | fmaxD | fcvtSD | fcvtDS | fsqrtD | faddQ | fsubQ | fmulQ | fdivQ | fsgnjQ | fsgnjnQ | fsgnjxQ
  | fminQ | fmaxQ | fcvtSQ | fcvtQS | fcvtDQ | fcvtQD | fsqrtQ | fleS | fltS | feqS | fleD | fltD
  | feqD | fleQ | fltQ | feqQ | fcvtWS | fcvtWuS | fcvtLS | fcvtLuS | fmvXW | fclassS | fcvtWD
  | fcvtWuD | fcvtLD | fcvtLuD | fmvXD | fclassD | fcvtWQ | fcvtWuQ | fcvtLQ | fcvtLuQ | fmvXQ
  | fclassQ | fcvtSW | fcvtSWu | fcvtSL | fcvtSLu | fmvWX | fcvtDW | fcvtDWu | fcvtDL | fcvtDLu
  | fmvDX | fcvtQW | fcvtQWu | fcvtQL | fcvtQLu | fmvQX | flw | fld | flq | fsw | fsd | fsq
  | fmaddS | fmsubS | fnmsubS | fnmaddS | fmaddD | fmsubD | fnmsubD | fnmaddD | fmaddQ | fmsubQ
  | fnmsubQ | fnmaddQ
  deriving DecidableEq, Repr

/-- The fields of instruction words. -/
inductive Field where
  | rd | rs1 | rs2 | rs3 | rm | imm12 | imm20 | jimm20 | storeimm | bimm | aqrl
  | shamt | shamtw | pred | succ | fm
  deriving DecidableEq, Repr

/-- A run of bits of a field: where it stands in the word and in the value. -/
structure BitSection where
  /-- The highest bit of the run in the value. -/
  fromBit : Nat
  msb : Nat
  lsb : Nat
  /-- The lowest bit of the run in the value. -/
  toBit : Nat
  deriving DecidableEq, Repr

/-- The bits that a field is made of. -/
def Field.location : Field → List BitSection
  | rd => [⟨4, 11, 7, 0⟩]
  | rs1 => [⟨4, 19, 15, 0⟩]
  | rs2 => [⟨4, 24, 20, 0⟩]
  | rs3 => [⟨4, 31, 27, 0⟩]
  | rm => [⟨2, 14, 12, 0⟩]
  | imm12 => [⟨11, 31, 20, 0⟩]
  | imm20 => [⟨31, 31, 12, 12⟩]
  | jimm20 => [⟨20, 31, 31, 20⟩, ⟨10, 30, 21, 1⟩, ⟨11, 20, 20, 11⟩, ⟨19, 19, 12, 12⟩]
  | storeimm => [⟨11, 31, 25, 5⟩, ⟨4, 11, 7, 0⟩]
  | bimm => [⟨12, 31, 31, 12⟩, ⟨10, 30, 25, 5⟩, ⟨4, 11, 8, 1⟩, ⟨11, 7, 7, 11⟩]
  | aqrl => [⟨1, 26, 25, 0⟩]
  | shamt => [⟨5, 25, 20, 0⟩]
  | shamtw => [⟨4, 24, 20, 0⟩]
  | pred => [⟨3, 27, 24, 0⟩]
  | succ => [⟨3, 23, 20, 0⟩]
  | fm => [⟨3, 31, 28, 0⟩]

/-- The description of an instruction. -/
structure InstrDescr where
  id : InstrId
  /-- The bits that every word of the instruction fixes. -/
  fixedmask : InstrCode
  fixedvalue : InstrCode
  fields : List Field
  deriving DecidableEq, Repr

/-- The described instructions. -/
def instructions : List InstrDescr := [
  ⟨.beq, 0x707f, 0x63, [.rs1, .rs2, .bimm]⟩,
  ⟨.bne, 0x707f, 0x1063, [.rs1, .rs2, .bimm]⟩,
  ⟨.blt, 0x707f, 0x4063, [.rs1, .rs2, .bimm]⟩,
  ⟨.bge, 0x707f, 0x5063, [.rs1, .rs2, .bimm]⟩,
  ⟨.bltu, 0x707f, 0x6063, [.rs1, .rs2, .bimm]⟩,
  ⟨.bgeu, 0x707f, 0x7063, [.rs1, .rs2, .bimm]⟩,
  ⟨.jalr, 0x707f, 0x67, [.rd, .rs1, .imm12]⟩,
  ⟨.jal, 0x7f, 0x6f, [.rd, .jimm20]⟩,
  ⟨.lui, 0x7f, 0x37, [.rd, .imm20]⟩,
  ⟨.auipc, 0x7f, 0x17, [.rd, .imm20]⟩,
  ⟨.addi, 0x707f, 0x13, [.rd, .rs1, .imm12]⟩,
  ⟨.slli, 0xfc00707f, 0x1013, [.rd, .rs1, .shamt]⟩,
  ⟨.slti, 0x707f, 0x2013, [.rd, .rs1, .imm12]⟩,
  ⟨.sltiu, 0x707f, 0x3013, [.rd, .rs1, .imm12]⟩,
  ⟨.xori, 0x707f, 0x4013, [.rd, .rs1, .imm12]⟩,
  ⟨.srli, 0xfc00707f, 0x5013, [.rd, .rs1, .shamt]⟩,
  ⟨.srai, 0xfc00707f, 0x40005013, [.rd, .rs1, .shamt]⟩,
  ⟨.ori, 0x707f, 0x6013, [.rd, .rs1, .imm12]⟩,
  ⟨.andi, 0x707f, 0x7013, [.rd, .rs1, .imm12]⟩,
  ⟨.add, 0xfe00707f, 0x33, [.rd, .rs1, .rs2]⟩,
  ⟨.sub, 0xfe00707f, 0x40000033, [.rd, .rs1, .rs2]⟩,
  ⟨.sll, 0xfe00707f, 0x1033, [.rd, .rs1, .rs2]⟩,
  ⟨.slt, 0xfe00707f, 0x2033, [.rd, .rs1, .rs2]⟩,
  ⟨.sltu, 0xfe00707f, 0x3033, [.rd, .rs1, .rs2]⟩,
  ⟨.xor, 0xfe00707f, 0x4033, [.rd, .rs1, .rs2]⟩,
  ⟨.srl, 0xfe00707f, 0x5033, [.rd, .rs1, .rs2]⟩,
  ⟨.sra, 0xfe00707f, 0x40005033, [.rd, .rs1, .rs2]⟩,
  ⟨.or, 0xfe00707f, 0x6033, [.rd, .rs1, .rs2]⟩,
  ⟨.and, 0xfe00707f, 0x7033, [.rd, .rs1, .rs2]⟩,
  ⟨.addiw, 0x707f, 0x1b, [.rd, .rs1, .imm12]⟩,
  ⟨.slliw, 0xfe00707f, 0x101b, [.rd, .rs1, .shamtw]⟩,
  ⟨.srliw, 0xfe00707f, 0x501b, [.rd, .rs1, .shamtw]⟩,
  ⟨.sraiw, 0xfe00707f, 0x4000501b, [.rd, .rs1, .shamtw]⟩,
  ⟨.addw, 0xfe00707f, 0x3b, [.rd, .rs1, .rs2]⟩,
  ⟨.subw, 0xfe00707f, 0x4000003b, [.rd, .rs1, .rs2]⟩,
  ⟨.sllw, 0xfe00707f, 0x103b, [.rd, .rs1, .rs2]⟩,
  ⟨.srlw, 0xfe00707f, 0x503b, [.rd, .rs1, .rs2]⟩,
  ⟨.sraw, 0xfe00707f, 0x4000503b, [.rd, .rs1, .rs2]⟩,
  ⟨.lb, 0x707f, 0x3, [.rd, .rs1, .imm12]⟩,
  ⟨.lh, 0x707f, 0x1003, [.rd, .rs1, .imm12]⟩,
  ⟨.lw, 0x707f, 0x2003, [.rd, .rs1, .imm12]⟩,
  ⟨.ld, 0x707f, 0x3003, [.rd, .rs1, .imm12]⟩,
  ⟨.lbu, 0x707f, 0x4003, [.rd, .rs1, .imm12]⟩,
  ⟨.lhu, 0x707f, 0x5003, [.rd, .rs1, .imm12]⟩,
  ⟨.lwu, 0x707f, 0x6003, [.rd, .rs1, .imm12]⟩,
  ⟨.sb, 0x707f, 0x23, [.rs1, .rs2, .storeimm]⟩,
  ⟨.sh, 0x707f, 0x1023, [.rs1, .rs2, .storeimm]⟩,
  ⟨.sw, 0x707f, 0x2023, [.rs1, .rs2, .storeimm]⟩,
  ⟨.sd, 0x707f, 0x3023, [.rs1, .rs2, .storeimm]⟩,
  ⟨.fence, 0x707f, 0xf, [.fm, .pred, .succ, .rs1, .rd]⟩,
  ⟨.fenceI, 0x707f, 0x100f, [.imm12, .rs1, .rd]⟩,
  ⟨.mul, 0xfe00707f, 0x2000033, [.rd, .rs1, .rs2]⟩,
  ⟨.mulh, 0xfe00707f, 0x2001033, [.rd, .rs1, .rs2]⟩,
  ⟨.mulhsu, 0xfe00707f, 0x2002033, [.rd, .rs1, .rs2]⟩,
  ⟨.mulhu, 0xfe00707f, 0x2003033, [.rd, .rs1, .rs2]⟩,
  ⟨.div, 0xfe00707f, 0x2004033, [.rd, .rs1, .rs2]⟩,
  ⟨.divu, 0xfe00707f, 0x2005033, [.rd, .rs1, .rs2]⟩,
  ⟨.rem, 0xfe00707f, 0x2006033, [.rd, .rs1, .rs2]⟩,
  ⟨.remu, 0xfe00707f, 0x2007033, [.rd, .rs1, .rs2]⟩,
  ⟨.mulw, 0xfe00707f, 0x200003b, [.rd, .rs1, .rs2]⟩,
  ⟨.divw, 0xfe00707f, 0x200403b, [.rd, .rs1, .rs2]⟩,
  ⟨.divuw, 0xfe00707f, 0x200503b, [.rd, .rs1, .rs2]⟩,
  ⟨.remw, 0xfe00707f, 0x200603b, [.rd, .rs1, .rs2]⟩,
  ⟨.remuw, 0xfe00707f, 0x200703b, [.rd, .rs1, .rs2]⟩,
  ⟨.amoaddW, 0xf800707f, 0x202f, [.rd, .rs1, .rs2, .aqrl]⟩,
  ⟨.amoxorW, 0xf800707f, 0x2000202f, [.rd, .rs1, .rs2, .aqrl]⟩,
  ⟨.amoorW, 0xf800707f, 0x4000202f, [.rd, .rs1, .rs2, .aqrl]⟩,
  ⟨.amoandW, 0xf800707f, 0x6000202f, [.rd, .rs1, .rs2, .aqrl]⟩,
  ⟨.amominW, 0xf800707f, 0x8000202f, [.rd, .rs1, .rs2, .aqrl]⟩,
  ⟨.amomaxW, 0xf800707f, 0xa000202f, [.rd, .rs1, .rs2, .aqrl]⟩,
  ⟨.amominuW, 0xf800707f, 0xc000202f, [.rd, .rs1, .rs2, .aqrl]⟩,
  ⟨.amomaxuW, 0xf800707f, 0xe000202f, [.rd, .rs1, .rs2, .aqrl]⟩,
  ⟨.amoswapW, 0xf800707f, 0x800202f, [.rd, .rs1, .rs2, .aqrl]⟩,
  ⟨.lrW, 0xf9f0707f, 0x1000202f, [.rd, .rs1, .aqrl]⟩,
  ⟨.scW, 0xf800707f, 0x1800202f, [.rd, .rs1, .rs2, .aqrl]⟩,
  ⟨.amoaddD, 0xf800707f, 0x302f, [.rd, .rs1, .rs2, .aqrl]⟩,
  ⟨.amoxorD, 0xf800707f, 0x2000302f, [.rd, .rs1, .rs2, .aqrl]⟩,
  ⟨.amoorD, 0xf800707f, 0x4000302f, [.rd, .rs1, .rs2, .aqrl]⟩,
  ⟨.amoandD, 0xf800707f, 0x6000302f, [.rd, .rs1, .rs2, .aqrl]⟩,
  ⟨.amominD, 0xf800707f, 0x8000302f, [.rd, .rs1, .rs2, .aqrl]⟩,
  ⟨.amomaxD, 0xf800707f, 0xa000302f, [.rd, .rs1, .rs2, .aqrl]⟩,
  ⟨.amominuD, 0xf800707f, 0xc000302f, [.rd, .rs1, .rs2, .aqrl]⟩,
  ⟨.amomaxuD, 0xf800707f, 0xe000302f, [.rd, .rs1, .rs2, .aqrl]⟩,
  ⟨.amoswapD, 0xf800707f, 0x800302f, [.rd, .rs1, .rs2, .aqrl]⟩,
  ⟨.lrD, 0xf9f0707f, 0x1000302f, [.rd, .rs1, .aqrl]⟩,
  ⟨.scD, 0xf800707f, 0x1800302f, [.rd, .rs1, .rs2, .aqrl]⟩,
  ⟨.ecall, 0xffffffff, 0x73, []⟩,
  ⟨.ebreak, 0xffffffff, 0x100073, []⟩,
  ⟨.uret, 0xffffffff, 0x200073, []⟩,
  ⟨.sret, 0xffffffff, 0x10200073, []⟩,
  ⟨.mret, 0xffffffff, 0x30200073, []⟩,
  ⟨.dret, 0xffffffff, 0x7b200073, []⟩,
  ⟨.sfenceVma, 0xfe007fff, 0x12000073, [.rs1, .rs2]⟩,
  ⟨.wfi, 0xffffffff, 0x10500073, []⟩,
  ⟨.csrrw, 0x707f, 0x1073, [.rd, .rs1, .imm12]⟩,
  ⟨.csrrs, 0x707f, 0x2073, [.rd, .rs1, .imm12]⟩,
  ⟨.csrrc, 0x707f, 0x3073, [.rd, .rs1, .imm12]⟩,
  ⟨.csrrwi, 0x707f, 0x5073, [.rd, .rs1, .imm12]⟩,
  ⟨.csrrsi, 0x707f, 0x6073, [.rd, .rs1, .imm12]⟩,
  ⟨.csrrci, 0x707f, 0x7073, [.rd, .rs1, .imm12]⟩,
  ⟨.hfenceVvma, 0xfe007fff, 0x22000073, [.rs1, .rs2]⟩,
  ⟨.hfenceGvma, 0xfe007fff, 0x62000073, [.rs1, .rs2]⟩,
  ⟨.faddS, 0xfe00007f, 0x53, [.rd, .rs1, .rs2, .rm]⟩,
  ⟨.fsubS, 0xfe00007f, 0x8000053, [.rd, .rs1, .rs2, .rm]⟩,
  ⟨.fmulS, 0xfe00007f, 0x10000053, [.rd, .rs1, .rs2, .rm]⟩,
  ⟨.fdivS, 0xfe00007f, 0x18000053, [.rd, .rs1, .rs2, .rm]⟩,
  ⟨.fsgnjS, 0xfe00707f, 0x20000053, [.rd, .rs1, .rs2]⟩,
  ⟨.fsgnjnS, 0xfe00707f, 0x20001053, [.rd, .rs1, .rs2]⟩,
  ⟨.fsgnjxS, 0xfe00707f, 0x20002053, [.rd, .rs1, .rs2]⟩,
  ⟨.fminS, 0xfe00707f, 0x28000053, [.rd, .rs1, .rs2]⟩,
  ⟨.fmaxS, 0xfe00707f, 0x28001053, [.rd, .rs1, .rs2]⟩,
  ⟨.fsqrtS, 0xfff0007f, 0x58000053, [.rd, .rs1, .rm]⟩,
  ⟨.faddD, 0xfe00007f, 0x2000053, [.rd, .rs1, .rs2, .rm]⟩,
  ⟨.fsubD, 0xfe00007f, 0xa000053, [.rd, .rs1, .rs2, .rm]⟩,
  ⟨.fmulD, 0xfe00007f, 0x12000053, [.rd, .rs1, .rs2, .rm]⟩,
  ⟨.fdivD, 0xfe00007f, 0x1a000053, [.rd, .rs1, .rs2, .rm]⟩,
  ⟨.fsgnjD, 0xfe00707f, 0x22000053, [.rd, .rs1, .rs2]⟩,
  ⟨.fsgnjnD, 0xfe00707f, 0x22001053, [.rd, .rs1, .rs2]⟩,
  ⟨.fsgnjxD, 0xfe00707f, 0x22002053, [.rd, .rs1, .rs2]⟩,
  ⟨.fminD, 0xfe00707f, 0x2a000053, [.rd, .rs1, .rs2]⟩,
  ⟨.fmaxD, 0xfe00707f, 0x2a001053, [.rd, .rs1, .rs2]⟩,
  ⟨.fcvtSD, 0xfff0007f, 0x40100053, [.rd, .rs1, .rm]⟩,
  ⟨.fcvtDS, 0xfff0007f, 0x42000053, [.rd, .rs1, .rm]⟩,
  ⟨.fsqrtD, 0xfff0007f, 0x5a000053, [.rd, .rs1, .rm]⟩,
  ⟨.faddQ, 0xfe00007f, 0x6000053, [.rd, .rs1, .rs2, .rm]⟩,
  ⟨.fsubQ, 0xfe00007f, 0xe000053, [.rd, .rs1, .rs2, .rm]⟩,
  ⟨.fmulQ, 0xfe00007f, 0x16000053, [.rd, .rs1, .rs2, .rm]⟩,
  ⟨.fdivQ, 0xfe00007f, 0x1e000053, [.rd, .rs1, .rs2, .rm]⟩,
  ⟨.fsgnjQ, 0xfe00707f, 0x26000053, [.rd, .rs1, .rs2]⟩,
  ⟨.fsgnjnQ, 0xfe00707f, 0x26001053, [.rd, .rs1, .rs2]⟩,
  ⟨.fsgnjxQ, 0xfe00707f, 0x26002053, [.rd, .rs1, .rs2]⟩,
  ⟨.fminQ, 0xfe00707f, 0x2e000053, [.rd, .rs1, .rs2]⟩,
  ⟨.fmaxQ, 0xfe00707f, 0x2e001053, [.rd, .rs1, .rs2]⟩,
  ⟨.fcvtSQ, 0xfff0007f, 0x40300053, [.rd, .rs1, .rm]⟩,
  ⟨.fcvtQS, 0xfff0007f, 0x46000053, [.rd, .rs1, .rm]⟩,
  ⟨.fcvtDQ, 0xfff0007f, 0x42300053, [.rd, .rs1, .rm]⟩,
  ⟨.fcvtQD, 0xfff0007f, 0x46100053, [.rd, .rs1, .rm]⟩,
  ⟨.fsqrtQ, 0xfff0007f, 0x5e000053, [.rd, .rs1, .rm]⟩,
  ⟨.fleS, 0xfe00707f, 0xa0000053, [.rd, .rs1, .rs2]⟩,
  ⟨.fltS, 0xfe00707f, 0xa0001053, [.rd, .rs1, .rs2]⟩,
  ⟨.feqS, 0xfe00707f, 0xa0002053, [.rd, .rs1, .rs2]⟩,
  ⟨.fleD, 0xfe00707f, 0xa2000053, [.rd, .rs1, .rs2]⟩,
  ⟨.fltD, 0xfe00707f, 0xa2001053, [.rd, .rs1, .rs2]⟩,
  ⟨.feqD, 0xfe00707f, 0xa2002053, [.rd, .rs1, .rs2]⟩,
  ⟨.fleQ, 0xfe00707f, 0xa6000053, [.rd, .rs1, .rs2]⟩,
  ⟨.fltQ, 0xfe00707f, 0xa6001053, [.rd, .rs1, .rs2]⟩,
  ⟨.feqQ, 0xfe00707f, 0xa6002053, [.rd, .rs1, .rs2]⟩,
  ⟨.fcvtWS, 0xfff0007f, 0xc0000053, [.rd, .rs1, .rm]⟩,
  ⟨.fcvtWuS, 0xfff0007f, 0xc0100053, [.rd, .rs1, .rm]⟩,
  ⟨.fcvtLS, 0xfff0007f, 0xc0200053, [.rd, .rs1, .rm]⟩,
  ⟨.fcvtLuS, 0xfff0007f, 0xc0300053, [.rd, .rs1, .rm]⟩,
  ⟨.fmvXW, 0xfff0707f, 0xe0000053, [.rd, .rs1]⟩,
  ⟨.fclassS, 0xfff0707f, 0xe0001053, [.rd, .rs1]⟩,
  ⟨.fcvtWD, 0xfff0007f, 0xc2000053, [.rd, .rs1, .rm]⟩,
  ⟨.fcvtWuD, 0xfff0007f, 0xc2100053, [.rd, .rs1, .rm]⟩,
  ⟨.fcvtLD, 0xfff0007f, 0xc2200053, [.rd, .rs1, .rm]⟩,
  ⟨.fcvtLuD, 0xfff0007f, 0xc2300053, [.rd, .rs1, .rm]⟩,
  ⟨.fmvXD, 0xfff0707f, 0xe2000053, [.rd, .rs1]⟩,
  ⟨.fclassD, 0xfff0707f, 0xe2001053, [.rd, .rs1]⟩,
  ⟨.fcvtWQ, 0xfff0007f, 0xc6000053, [.rd, .rs1, .rm]⟩,
  ⟨.fcvtWuQ, 0xfff0007f, 0xc6100053, [.rd, .rs1, .rm]⟩,
  ⟨.fcvtLQ, 0xfff0007f, 0xc6200053, [.rd, .rs1, .rm]⟩,
  ⟨.fcvtLuQ, 0xfff0007f, 0xc6300053, [.rd, .rs1, .rm]⟩,
  ⟨.fmvXQ, 0xfff0707f, 0xe6000053, [.rd, .rs1]⟩,
  ⟨.fclassQ, 0xfff0707f, 0xe6001053, [.rd, .rs1]⟩,
  ⟨.fcvtSW, 0xfff0007f, 0xd0000053, [.rd, .rs1, .rm]⟩,
  ⟨.fcvtSWu, 0xfff0007f, 0xd0100053, [.rd, .rs1, .rm]⟩,
  ⟨.fcvtSL, 0xfff0007f, 0xd0200053, [.rd, .rs1, .rm]⟩,
  ⟨.fcvtSLu, 0xfff0007f, 0xd0300053, [.rd, .rs1, .rm]⟩,
  ⟨.fmvWX, 0xfff0707f, 0xf0000053, [.rd, .rs1]⟩,
  ⟨.fcvtDW, 0xfff0007f, 0xd2000053, [.rd, .rs1, .rm]⟩,
  ⟨.fcvtDWu, 0xfff0007f, 0xd2100053, [.rd, .rs1, .rm]⟩,
  ⟨.fcvtDL, 0xfff0007f, 0xd2200053, [.rd, .rs1, .rm]⟩,
  ⟨.fcvtDLu, 0xfff0007f, 0xd2300053, [.rd, .rs1, .rm]⟩,
  ⟨.fmvDX, 0xfff0707f, 0xf2000053, [.rd, .rs1]⟩,
  ⟨.fcvtQW, 0xfff0007f, 0xd6000053, [.rd, .rs1, .rm]⟩,
  ⟨.fcvtQWu, 0xfff0007f, 0xd6100053, [.rd, .rs1, .rm]⟩,
  ⟨.fcvtQL, 0xfff0007f, 0xd6200053, [.rd, .rs1, .rm]⟩,
  ⟨.fcvtQLu, 0xfff0007f, 0xd6300053, [.rd, .rs1, .rm]⟩,
  ⟨.fmvQX, 0xfff0707f, 0xf6000053, [.rd, .rs1]⟩,
  ⟨.flw, 0x707f, 0x2007, [.rd, .rs1, .imm12]⟩,
  ⟨.fld, 0x707f, 0x3007, [.rd, .rs1, .imm12]⟩,
  ⟨.flq, 0x707f, 0x4007, [.rd, .rs1, .imm12]⟩,
  ⟨.fsw, 0x707f, 0x2027, [.rs1, .rs2, .storeimm]⟩,
  ⟨.fsd, 0x707f, 0x3027, [.rs1, .rs2, .storeimm]⟩,
  ⟨.fsq, 0x707f, 0x4027, [.rs1, .rs2, .storeimm]⟩,
  ⟨.fmaddS, 0x600007f, 0x43, [.rd, .rs1, .rs2, .rs3, .rm]⟩,
  ⟨.fmsubS, 0x600007f, 0x47, [.rd, .rs1, .rs2, .rs3, .rm]⟩,
  ⟨.fnmsubS, 0x600007f, 0x4b, [.rd, .rs1, .rs2, .rs3, .rm]⟩,
  ⟨.fnmaddS, 0x600007f, 0x4f, [.rd, .rs1, .rs2, .rs3, .rm]⟩,
  ⟨.fmaddD, 0x600007f, 0x2000043, [.rd, .rs1, .rs2, .rs3, .rm]⟩,
  ⟨.fmsubD, 0x600007f, 0x2000047, [.rd, .rs1, .rs2, .rs3, .rm]⟩,
  ⟨.fnmsubD, 0x600007f, 0x200004b, [.rd, .rs1, .rs2, .rs3, .rm]⟩,
  ⟨.fnmaddD, 0x600007f, 0x200004f, [.rd, .rs1, .rs2, .rs3, .rm]⟩,
  ⟨.fmaddQ, 0x600007f, 0x6000043, [.rd, .rs1, .rs2, .rs3, .rm]⟩,
  ⟨.fmsubQ, 0x600007f, 0x6000047, [.rd, .rs1, .rs2, .rs3, .rm]⟩,
  ⟨.fnmsubQ, 0x600007f, 0x600004b, [.rd, .rs1, .rs2, .rs3, .rm]⟩,
  ⟨.fnmaddQ, 0x600007f, 0x600004f, [.rd, .rs1, .rs2, .rs3, .rm]⟩]

/-- The switches that tell instruction words apart. -/
def decodertree : DecisionTree InstrId :=
  .switch 6 0 [
    (99, .switch 14 12 [
      (0, .leaf .beq), (1, .leaf .bne), (4, .leaf .blt), (5, .leaf .bge), (6, .leaf .bltu),
      (7, .leaf .bgeu)]),
    (103, .leaf .jalr), (111, .leaf .jal), (55, .leaf .lui), (23, .leaf .auipc),
    (19, .switch 14 12 [
      (0, .leaf .addi), (1, .leaf .slli), (2, .leaf .slti), (3, .leaf .sltiu), (4, .leaf .xori),
      (5, .switch 31 26 [(0, .leaf .srli), (16, .leaf .srai)]), (6, .leaf .ori), (7, .leaf .andi)]),
    (51, .switch 31 25 [
      (0, .switch 14 12 [
        (0, .leaf .add), (1, .leaf .sll), (2, .leaf .slt), (3, .leaf .sltu), (4, .leaf .xor),
        (5, .leaf .srl), (6, .leaf .or), (7, .leaf .and)]),
      (32, .switch 14 12 [(0, .leaf .sub), (5, .leaf .sra)]),
      (1, .switch 14 12 [
        (0, .leaf .mul), (1, .leaf .mulh), (2, .leaf .mulhsu), (3, .leaf .mulhu), (4, .leaf .div),
        (5, .leaf .divu), (6, .leaf .rem), (7, .leaf .remu)])]),
    (27, .switch 14 12 [
      (0, .leaf .addiw), (1, .leaf .slliw),
      (5, .switch 31 25 [(0, .leaf .srliw), (32, .leaf .sraiw)])]),
    (59, .switch 31 25 [
      (0, .switch 14 12 [(0, .leaf .addw), (1, .leaf .sllw), (5, .leaf .srlw)]),
      (32, .switch 14 12 [(0, .leaf .subw), (5, .leaf .sraw)]),
      (1, .switch 14 12 [
        (0, .leaf .mulw), (4, .leaf .divw), (5, .leaf .divuw), (6, .leaf .remw),
        (7, .leaf .remuw)])]),
    (3, .switch 14 12 [
      (0, .leaf .lb), (1, .leaf .lh), (2, .leaf .lw), (3, .leaf .ld), (4, .leaf .lbu),
      (5, .leaf .lhu), (6, .leaf .lwu)]),
    (35, .switch 14 12 [
      (0, .leaf .sb), (1, .leaf .sh), (2, .leaf .sw), (3, .leaf .sd)]),
    (15, .switch 14 12 [(0, .leaf .fence), (1, .leaf .fenceI)]),
    (47, .switch 31 27 [
      (0, .switch 14 12 [(2, .leaf .amoaddW), (3, .leaf .amoaddD)]),
      (4, .switch 14 12 [(2, .leaf .amoxorW), (3, .leaf .amoxorD)]),
      (8, .switch 14 12 [(2, .leaf .amoorW), (3, .leaf .amoorD)]),
      (12, .switch 14 12 [(2, .leaf .amoandW), (3, .leaf .amoandD)]),
      (16, .switch 14 12 [(2, .leaf .amominW), (3, .leaf .amominD)]),
      (20, .switch 14 12 [(2, .leaf .amomaxW), (3, .leaf .amomaxD)]),
      (24, .switch 14 12 [(2, .leaf .amominuW), (3, .leaf .amominuD)]),
      (28, .switch 14 12 [(2, .leaf .amomaxuW), (3, .leaf .amomaxuD)]),
      (1, .switch 14 12 [(2, .leaf .amoswapW), (3, .leaf .amoswapD)]),
      (2, .switch 24 20 [(0, .switch 14 12 [(2, .leaf .lrW), (3, .leaf .lrD)])]),
      (3, .switch 14 12 [(2, .leaf .scW), (3, .leaf .scD)])]),
    (115, .switch 14 12 [
      (0, .switch 31 25 [
        (0, .switch 24 15 [
          (0, .leaf .ecall), (32, .leaf .ebreak), (64, .leaf .uret)]),
        (8, .switch 24 15 [(64, .leaf .sret), (160, .leaf .wfi)]), (24, .leaf .mret),
        (61, .leaf .dret), (9, .leaf .sfenceVma), (17, .leaf .hfenceVvma),
        (49, .leaf .hfenceGvma)]),
      (1, .leaf .csrrw), (2, .leaf .csrrs), (3, .leaf .csrrc), (5, .leaf .csrrwi),
      (6, .leaf .csrrsi), (7, .leaf .csrrci)]),
    (83, .switch 31 25 [
      (0, .leaf .faddS), (4, .leaf .fsubS), (8, .leaf .fmulS), (12, .leaf .fdivS),
      (16, .switch 14 12 [
        (0, .leaf .fsgnjS), (1, .leaf .fsgnjnS), (2, .leaf .fsgnjxS)]),
      (20, .switch 14 12 [(0, .leaf .fminS), (1, .leaf .fmaxS)]), (44, .leaf .fsqrtS),
      (1, .leaf .faddD), (5, .leaf .fsubD), (9, .leaf .fmulD), (13, .leaf .fdivD),
      (17, .switch 14 12 [
        (0, .leaf .fsgnjD), (1, .leaf .fsgnjnD), (2, .leaf .fsgnjxD)]),
      (21, .switch 14 12 [(0, .leaf .fminD), (1, .leaf .fmaxD)]),
      (32, .switch 24 20 [(1, .leaf .fcvtSD), (3, .leaf .fcvtSQ)]),
      (33, .switch 24 20 [(0, .leaf .fcvtDS), (3, .leaf .fcvtDQ)]), (45, .leaf .fsqrtD),
      (3, .leaf .faddQ), (7, .leaf .fsubQ), (11, .leaf .fmulQ), (15, .leaf .fdivQ),
      (19, .switch 14 12 [
        (0, .leaf .fsgnjQ), (1, .leaf .fsgnjnQ), (2, .leaf .fsgnjxQ)]),
      (23, .switch 14 12 [(0, .leaf .fminQ), (1, .leaf .fmaxQ)]),
      (35, .switch 24 20 [(0, .leaf .fcvtQS), (1, .leaf .fcvtQD)]), (47, .leaf .fsqrtQ),
      (80, .switch 14 12 [(0, .leaf .fleS), (1, .leaf .fltS), (2, .leaf .feqS)]),
      (81, .switch 14 12 [(0, .leaf .fleD), (1, .leaf .fltD), (2, .leaf .feqD)]),
      (83, .switch 14 12 [(0, .leaf .fleQ), (1, .leaf .fltQ), (2, .leaf .feqQ)]),
      (96, .switch 24 20 [
        (0, .leaf .fcvtWS), (1, .leaf .fcvtWuS), (2, .leaf .fcvtLS), (3, .leaf .fcvtLuS)]),
      (112, .switch 24 20 [
        (0, .switch 14 12 [(0, .leaf .fmvXW), (1, .leaf .fclassS)])]),
      (97, .switch 24 20 [
        (0, .leaf .fcvtWD), (1, .leaf .fcvtWuD), (2, .leaf .fcvtLD), (3, .leaf .fcvtLuD)]),
      (113, .switch 24 20 [
        (0, .switch 14 12 [(0, .leaf .fmvXD), (1, .leaf .fclassD)])]),
      (99, .switch 24 20 [
        (0, .leaf .fcvtWQ), (1, .leaf .fcvtWuQ), (2, .leaf .fcvtLQ), (3, .leaf .fcvtLuQ)]),
      (115, .switch 24 20 [
        (0, .switch 14 12 [(0, .leaf .fmvXQ), (1, .leaf .fclassQ)])]),
      (104, .switch 24 20 [
        (0, .leaf .fcvtSW), (1, .leaf .fcvtSWu), (2, .leaf .fcvtSL), (3, .leaf .fcvtSLu)]),
      (120, .leaf .fmvWX),
      (105, .switch 24 20 [
        (0, .leaf .fcvtDW), (1, .leaf .fcvtDWu), (2, .leaf .fcvtDL), (3, .leaf .fcvtDLu)]),
      (121, .leaf .fmvDX),
      (107, .switch 24 20 [
        (0, .leaf .fcvtQW), (1, .leaf .fcvtQWu), (2, .leaf .fcvtQL), (3, .leaf .fcvtQLu)]),
      (123, .leaf .fmvQX)]),
    (7, .switch 14 12 [(2, .leaf .flw), (3, .leaf .fld), (4, .leaf .flq)]),
    (39, .switch 14 12 [(2, .leaf .fsw), (3, .leaf .fsd), (4, .leaf .fsq)]),
    (67, .switch 26 25 [(0, .leaf .fmaddS), (1, .leaf .fmaddD), (3, .leaf .fmaddQ)]),
    (71, .switch 26 25 [(0, .leaf .fmsubS), (1, .leaf .fmsubD), (3, .leaf .fmsubQ)]),
    (75, .switch 26 25 [
      (0, .leaf .fnmsubS), (1, .leaf .fnmsubD), (3, .leaf .fnmsubQ)]),
    (79, .switch 26 25 [
      (0, .leaf .fnmaddS), (1, .leaf .fnmaddD), (3, .leaf .fnmaddQ)])]

end RiscvSim

import RiscvSim.Common

/-! Control and status registers, as the generated register classes keep them. -/

namespace RiscvSim

/-- The index of a control and status register. -/
abbrev CSRIdx := BitVec 16

namespace CSRIdx

/-- The index of MSTATUS. -/
def mstatus : CSRIdx := 0x300

/-- The index of SATP. -/
def satp : CSRIdx := 0x180

end CSRIdx

/-- A raw register value. -/
abbrev RawValue := BitVec 64

/-- The translation modes of SATP. -/
inductive ModeValue where
  | bare
  | sv39
  | sv48
  | sv57
  deriving DecidableEq, Repr

namespace ModeValue

/-- The encoding of a mode. -/
def raw : ModeValue → BitVec 8
  | bare => 0
  | sv39 => 8
  | sv48 => 9
  | sv57 => 10

/-- The mode with a given encoding, when it is legal. -/
def ofRaw (value : BitVec 8) : Option ModeValue :=
  if value = 0 then some bare
  else if value = 8 then some sv39
  else if value = 9 then some sv48
  else if value = 10 then some sv57
  else none

end ModeValue

/-- SATP in 64-bit mode. -/
structure SATP64 where
  mode : ModeValue := .bare
  asid : BitVec 16 := 0
  ppn : BitVec 64 := 0
  deriving DecidableEq, Repr

/-- MSTATUS in 64-bit mode. -/
structure MSTATUS64 where
  sum : BitVec 8 := 0
  mxr : BitVec 8 := 0
  deriving DecidableEq, Repr

namespace SATP64

/-- Unpack a raw value, replacing an illegal mode by zero. -/
def setValue (rawValue : RawValue) : SATP64 where
  -- The mode has no legal value outside its encodings, so any other one reads as bare.
  mode :=
    match ModeValue.ofRaw ((getBitField 63 60 rawValue).setWidth 8) with
    | some mode => mode
    | none => .bare
  asid := (getBitField 59 44 rawValue).setWidth 16
  ppn := getBitField 43 0 rawValue

/-- Pack the fields into a raw value. -/
def getValue (satp : SATP64) : RawValue :=
  -- Each field is cut to its range, so only a page number can lose bits.
  let value := setBitField 63 60 0 (satp.mode.raw.setWidth 64)
  let value := setBitField 59 44 value (satp.asid.setWidth 64)
  setBitField 43 0 value satp.ppn

/-- Set the translation mode. -/
def setMODE (satp : SATP64) (value : ModeValue) : SATP64 := { satp with mode := value }

/-- Set the address space identifier. -/
def setASID (satp : SATP64) (value : BitVec 16) : SATP64 := { satp with asid := value }

/-- Set the page number of the root table. -/
def setPPN (satp : SATP64) (value : BitVec 64) : SATP64 := { satp with ppn := value }

end SATP64

namespace MSTATUS64

/-- Unpack a raw value. -/
def setValue (rawValue : RawValue) : MSTATUS64 where
  sum := (getBitField 18 18 rawValue).setWidth 8
  mxr := (getBitField 19 19 rawValue).setWidth 8

/-- Pack the fields into a raw value. -/
def getValue (mstatus : MSTATUS64) : RawValue :=
  -- A flag is cut to its lowest bit.
  let value := setBitField 18 18 0 (mstatus.sum.setWidth 64)
  setBitField 19 19 value (mstatus.mxr.setWidth 64)

/-- Permit supervisor accesses to user memory. -/
def setSUM (mstatus : MSTATUS64) (value : BitVec 8) : MSTATUS64 := { mstatus with sum := value }

/-- Make executable pages readable. -/
def setMXR (mstatus : MSTATUS64) (value : BitVec 8) : MSTATUS64 := { mstatus with mxr := value }

end MSTATUS64

/-- The register file of one hart. -/
structure CSRFile where
  satp64 : SATP64 := {}
  mstatus64 : MSTATUS64 := {}
  deriving DecidableEq, Repr

namespace CSRFile

/-- Read a register into a destination. -/
def read (file : CSRFile) (idx : CSRIdx) (dst : RawValue) : SimStatus × RawValue :=
  if idx = CSRIdx.satp then (.ok, file.satp64.getValue)
  else if idx = CSRIdx.mstatus then (.ok, file.mstatus64.getValue)
  else (.csrNotSupported, dst)

/-- Set SATP. -/
def setSatp64 (file : CSRFile) (value : SATP64) : CSRFile := { file with satp64 := value }

/-- Set MSTATUS. -/
def setMstatus64 (file : CSRFile) (value : MSTATUS64) : CSRFile := { file with mstatus64 := value }

/-- Write a raw value to a register. -/
def write (file : CSRFile) (idx : CSRIdx) (value : RawValue) : SimStatus × CSRFile :=
  if idx = CSRIdx.satp then (.ok, file.setSatp64 (SATP64.setValue value))
  else if idx = CSRIdx.mstatus then (.ok, file.setMstatus64 (MSTATUS64.setValue value))
  else (.csrNotSupported, file)

end CSRFile

end RiscvSim

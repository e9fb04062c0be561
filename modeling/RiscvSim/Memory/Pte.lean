import RiscvSim.Memory.Common

/-! Page table entries and their flags. -/

namespace RiscvSim

/-- A page table entry. -/
abbrev PTE := BitVec 64

/-- The reserved bits, as neither Svnapot nor Svpbmt is supported. -/
def pteReservedMask : PTE := (0x3FF#64 <<< 54) ||| (3#64 <<< 8)

/-- The highest bit of the page number field. -/
def ptePpnHi : Nat := 53

/-- The lowest bit of the page number field. -/
def ptePpnLo : Nat := 10

/-- Page table entry flags. -/
structure PTEFlags where
  raw : BitVec 8
  deriving DecidableEq, Repr

namespace PTEFlags

def vMask : BitVec 8 := 1 <<< 0
def rMask : BitVec 8 := 1 <<< 1
def wMask : BitVec 8 := 1 <<< 2
def xMask : BitVec 8 := 1 <<< 3
def uMask : BitVec 8 := 1 <<< 4
def gMask : BitVec 8 := 1 <<< 5
def aMask : BitVec 8 := 1 <<< 6
def dMask : BitVec 8 := 1 <<< 7

/-- The flags of an entry are its low byte. -/
def ofPTE (pte : PTE) : PTEFlags := ⟨pte.setWidth 8⟩

def v (flags : PTEFlags) : Bool := flags.raw &&& vMask ≠ 0
def r (flags : PTEFlags) : Bool := flags.raw &&& rMask ≠ 0
def w (flags : PTEFlags) : Bool := flags.raw &&& wMask ≠ 0
def x (flags : PTEFlags) : Bool := flags.raw &&& xMask ≠ 0
def u (flags : PTEFlags) : Bool := flags.raw &&& uMask ≠ 0
def g (flags : PTEFlags) : Bool := flags.raw &&& gMask ≠ 0
def a (flags : PTEFlags) : Bool := flags.raw &&& aMask ≠ 0
def d (flags : PTEFlags) : Bool := flags.raw &&& dMask ≠ 0

end PTEFlags

/-- Create an entry from a page number and flags. -/
def createPTE (ppn : PPN) (flags : PTEFlags) : PTE :=
  -- Flags end below the reserved bits and the field stops short of them, so the assertion holds.
  setBitField ptePpnHi ptePpnLo (flags.raw.setWidth 64) ppn

end RiscvSim

import Mathlib.Algebra.Group.Int.Defs
import Mathlib.Algebra.Group.Nat.Defs

/-! Integer sums in C++ with 32-bit `int`: conversions decide the type in which a sum is made. -/

namespace CArith

/-- The types that operands of arithmetic are promoted to. -/
inductive IntType where
  | int
  | uint
  | long
  | ulong
  deriving DecidableEq, Repr

namespace IntType

/-- Sums of the type may overflow. -/
def isSigned : IntType → Bool
  | int | long => true
  | uint | ulong => false

/-- A number is a value of the type. -/
def InRange : IntType → Int → Prop
  | int, number => -0x80000000 ≤ number ∧ number < 0x80000000
  | uint, number => 0 ≤ number ∧ number < 0x100000000
  | long, number => -0x8000000000000000 ≤ number ∧ number < 0x8000000000000000
  | ulong, number => 0 ≤ number ∧ number < 0x10000000000000000

instance (type : IntType) (number : Int) : Decidable (type.InRange number) :=
  match type with
  | int => inferInstanceAs (Decidable (_ ∧ _))
  | uint => inferInstanceAs (Decidable (_ ∧ _))
  | long => inferInstanceAs (Decidable (_ ∧ _))
  | ulong => inferInstanceAs (Decidable (_ ∧ _))

/-- The value of the type that a number is converted to. -/
def wrap : IntType → Int → Int
  | int, number => number.bmod 0x100000000
  | uint, number => number % 0x100000000
  | long, number => number.bmod 0x10000000000000000
  | ulong, number => number % 0x10000000000000000

/-- Conversion gives a value of the type. -/
theorem inRange_wrap (type : IntType) (number : Int) : type.InRange (type.wrap number) := by
  -- Both remainders lie in their interval, the balanced one around zero.
  cases type with
  | int => exact ⟨Int.le_bmod (by omega), Int.bmod_lt (by omega)⟩
  | uint => exact ⟨Int.emod_nonneg _ (by omega), Int.emod_lt_of_pos _ (by omega)⟩
  | long => exact ⟨Int.le_bmod (by omega), Int.bmod_lt (by omega)⟩
  | ulong => exact ⟨Int.emod_nonneg _ (by omega), Int.emod_lt_of_pos _ (by omega)⟩

/-- Conversion keeps a value of the type. -/
theorem wrap_of_inRange {type : IntType} {number : Int} (inRange : type.InRange number) :
    type.wrap number = number := by
  -- A number in the interval is its own remainder.
  cases type with
  | int => exact Int.bmod_eq_of_le inRange.1 inRange.2
  | uint => exact Int.emod_eq_of_lt inRange.1 inRange.2
  | long => exact Int.bmod_eq_of_le inRange.1 inRange.2
  | ulong => exact Int.emod_eq_of_lt inRange.1 inRange.2

/-- The number of bits. -/
def width : IntType → Nat
  | int | uint => 32
  | long | ulong => 64

/-- Conversion keeps the low bits. -/
theorem ofInt_wrap {type : IntType} {w : Nat} (narrow : w ≤ type.width) (number : Int) :
    BitVec.ofInt w (type.wrap number) = BitVec.ofInt w number := by
  -- The modulus of the type is a multiple of that of the bits.
  have divides : (2 ^ w : Nat) ∣ 2 ^ type.width := Nat.pow_dvd_pow 2 narrow
  have kept (modulus : Nat) (multiple : (2 ^ w : Nat) ∣ modulus) :
      BitVec.ofInt w (number.bmod modulus) = BitVec.ofInt w number ∧
        BitVec.ofInt w (number % (modulus : Int)) = BitVec.ofInt w number := by
    constructor
    · -- Signed types take the balanced remainder, whose bits the signed value shows.
      apply BitVec.eq_of_toInt_eq
      rw [BitVec.toInt_ofInt, BitVec.toInt_ofInt]
      exact Int.bmod_bmod_of_dvd multiple
    · -- Unsigned types take the remainder from zero on, whose balanced form is the same.
      apply BitVec.eq_of_toInt_eq
      rw [BitVec.toInt_ofInt, BitVec.toInt_ofInt]
      rw [← Int.emod_bmod, Int.emod_emod_of_dvd number (Int.natCast_dvd_natCast.2 multiple),
        Int.emod_bmod]
  cases type with
  | int => exact (kept _ divides).1
  | uint => exact (kept _ divides).2
  | long => exact (kept _ divides).1
  | ulong => exact (kept _ divides).2

/-- The common type of two operands: the wider one, or the unsigned one of one width. -/
def common : IntType → IntType → IntType
  | ulong, _ | _, ulong => ulong
  | long, _ | _, long => long
  | uint, _ | _, uint => uint
  | int, int => int

end IntType

/-- A value together with its type. -/
structure Value where
  type : IntType
  number : Int
  inRange : type.InRange number

/-- Convert a number to a type. -/
def IntType.cast (type : IntType) (number : Int) : Value :=
  ⟨type, type.wrap number, type.inRange_wrap number⟩

/-- A value that a number was converted to has its low bits. -/
theorem IntType.ofInt_cast {type : IntType} {w : Nat} (narrow : w ≤ type.width) (number : Int) :
    BitVec.ofInt w (type.cast number).number = BitVec.ofInt w number :=
  type.ofInt_wrap narrow number

/-- Convert a value to another type. -/
def Value.convert (value : Value) (type : IntType) : Value := type.cast value.number

/-- Converting a value to its own type changes nothing. -/
theorem Value.convert_self {value : Value} {type : IntType} (same : value.type = type) :
    (value.convert type).number = value.number := by
  -- The number is a value of the type already, so wrapping it changes nothing.
  subst same
  exact IntType.wrap_of_inRange value.inRange

/-- The operators of sums. -/
inductive Op where
  | add
  | sub
  deriving DecidableEq, Repr

/-- The exact result of an operator. -/
def Op.apply : Op → Int → Int → Int
  | add, left, right => left + right
  | sub, left, right => left - right

/-- A sum or difference of two operands. -/
structure Sum where
  op : Op
  left : Value
  right : Value

namespace Sum

/-- The type in which the sum is made. -/
def type (sum : Sum) : IntType := sum.left.type.common sum.right.type

/-- The exact sum of the converted operands. -/
def exact (sum : Sum) : Int :=
  sum.op.apply (sum.left.convert sum.type).number (sum.right.convert sum.type).number

/-- The sum is undefined: its type is signed, and the exact result is not a value of it. -/
def Overflows (sum : Sum) : Prop := sum.type.isSigned ∧ ¬sum.type.InRange sum.exact

instance (sum : Sum) : Decidable sum.Overflows := inferInstanceAs (Decidable (_ ∧ _))

/-- The result, which wraps around. -/
def result (sum : Sum) : Value := sum.type.cast sum.exact

/-- Unsigned sums wrap around. -/
theorem not_overflows {sum : Sum} (isUnsigned : sum.type.isSigned = false) : ¬sum.Overflows := by
  intro overflows
  rw [Overflows, isUnsigned] at overflows
  exact absurd overflows.1 (by decide)

/-- A sum of two values of one signed type is defined exactly if its exact result is in range. -/
theorem not_overflows_iff (op : Op) {left right : Value} {type : IntType}
    (isSigned : type.isSigned) (leftType : left.type = type) (rightType : right.type = type) :
    ¬Overflows ⟨op, left, right⟩ ↔ type.InRange (op.apply left.number right.number) := by
  -- Operands of one type are not converted, so the sum is made in their type.
  have same : Sum.type ⟨op, left, right⟩ = type := by
    rw [Sum.type, leftType, rightType]
    cases type <;> rfl
  rw [Overflows, exact, same, Value.convert_self leftType, Value.convert_self rightType]
  simp [isSigned]

/-- The operator on bits. -/
def bits {w : Nat} : Op → BitVec w → BitVec w → BitVec w
  | .add, left, right => left + right
  | .sub, left, right => left - right

/-- The low bits of the result are those of the operands, added or subtracted. -/
theorem ofInt_result (sum : Sum) {w : Nat} (narrow : w ≤ sum.type.width) :
    BitVec.ofInt w sum.result.number =
      bits sum.op (BitVec.ofInt w sum.left.number) (BitVec.ofInt w sum.right.number) := by
  -- Converting the operands keeps their low bits, and so does wrapping the result.
  have left := IntType.ofInt_cast narrow sum.left.number
  have right := IntType.ofInt_cast narrow sum.right.number
  rw [result, IntType.ofInt_cast narrow, exact, Value.convert, Value.convert, ← left, ← right]
  cases sum.op with
  | add => exact BitVec.ofInt_add _ _
  | sub =>
    rw [Op.apply, bits, Int.sub_eq_add_neg, BitVec.ofInt_add, BitVec.ofInt_neg, BitVec.sub_eq_add_neg]

end Sum

end CArith

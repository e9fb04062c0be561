import Mathlib.Algebra.Group.Nat.Defs
import Mathlib.Tactic.Common

/-! Words as runs of bytes, least significant byte first. -/

namespace LittleEndian

/-- The byte of a word at a given position. -/
def byteAt {n : Nat} (word : BitVec (8 * n)) (i : Nat) : BitVec 8 :=
  word.extractLsb' (8 * i) 8

/-- The word whose bytes are read from the given positions upwards. -/
def fromBytes : (n : Nat) → (Nat → BitVec 8) → BitVec (8 * n)
  | 0, _ => 0#0
  -- The first position holds the low byte, and the rest are the bytes above it.
  | n + 1, bytes => fromBytes n (fun i => bytes (i + 1)) ++ bytes 0

/-- Each byte of a word that was put together is the byte it was put together from. -/
@[simp] theorem byteAt_fromBytes {n i : Nat} (bytes : Nat → BitVec 8) (inside : i < n) :
    byteAt (fromBytes n bytes) i = bytes i := by
  -- The low byte is the appended one, and every other byte lies in the part above it.
  induction n generalizing i bytes with
  | zero => omega
  | succ n ih =>
    cases i with
    | zero => exact BitVec.extractLsb'_append_eq_right
    | succ i =>
      -- Above the low byte, the position is one less in the bytes that follow.
      have tail := ih (fun i => bytes (i + 1)) (i := i) (by omega)
      rw [← tail]
      ext j bound
      simp only [byteAt, fromBytes, BitVec.getElem_extractLsb', BitVec.getLsbD_append]
      rw [if_neg (by omega)]
      congr 1
      omega

/-- The bytes of zero are zero. -/
@[simp] theorem byteAt_zero {n : Nat} (i : Nat) : byteAt (0 : BitVec (8 * n)) i = 0 := by
  -- Every bit of zero is zero, at any position.
  ext j bound
  simp [byteAt]

/-- Words with the same bytes are the same word. -/
theorem eq_of_byteAt {n : Nat} {left right : BitVec (8 * n)}
    (same : ∀ i < n, byteAt left i = byteAt right i) : left = right := by
  -- Bit `j` of a word is bit `j % 8` of its byte `j / 8`.
  ext j bound
  have bytes := same (j / 8) (by omega)
  have bits := congrArg (fun byte => byte.getLsbD (j % 8)) bytes
  have position : 8 * (j / 8) + j % 8 = j := by omega
  simpa [byteAt, position, show j % 8 < 8 by omega, bound] using bits

/-- A word depends only on the bytes at its own positions. -/
theorem fromBytes_congr {n : Nat} {left right : Nat → BitVec 8}
    (same : ∀ i < n, left i = right i) : fromBytes n left = fromBytes n right := by
  -- Every byte of either word is the byte it was put together from.
  apply eq_of_byteAt
  intro i inside
  rw [byteAt_fromBytes _ inside, byteAt_fromBytes _ inside, same i inside]

end LittleEndian

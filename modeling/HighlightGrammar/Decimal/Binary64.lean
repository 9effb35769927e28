/-! # Binary floating-point numbers

A number of the format binary64, held as its bits. Finite numbers are `mantissa * 2 ^ exponent`;
decimals are rounded to the nearest of them, ties to the even one. -/
namespace HighlightGrammar.Decimal

/-- A binary64 number. Every not-a-number is held as the same bits. -/
structure Binary64 where
  bits : UInt64
deriving DecidableEq, Repr, Inhabited

/-- The decimal number `digits * 10 ^ exponent`. -/
structure Scaled where
  digits : Nat
  exponent : Int
deriving DecidableEq, Repr

namespace Binary64

def nan : Binary64 := ⟨0x7FF8000000000000⟩

def infinity : Binary64 := ⟨0x7FF0000000000000⟩

def zero : Binary64 := ⟨0⟩

/-- The same number with the other sign. -/
def neg (x : Binary64) : Binary64 := ⟨x.bits ^^^ 0x8000000000000000⟩

/-- The bits without the sign. -/
def magnitude (x : Binary64) : Nat := (x.bits &&& 0x7FFFFFFFFFFFFFFF).toNat

def isNegative (x : Binary64) : Bool := x.bits &&& 0x8000000000000000 != 0

def isNaN (x : Binary64) : Bool := x.magnitude > 0x7FF0000000000000

def isInfinite (x : Binary64) : Bool := x.magnitude == 0x7FF0000000000000

def isFinite (x : Binary64) : Bool := x.magnitude < 0x7FF0000000000000

def isZero (x : Binary64) : Bool := x.magnitude == 0

/-- Equality of numbers: the two zeros are equal, and so is a not-a-number to itself. -/
def same (x y : Binary64) : Bool :=
  (x.isNaN && y.isNaN) || (x.isZero && y.isZero) || x.bits == y.bits

/-- The quotient rounded to the nearest natural number, halves to the even one. -/
def divNearest (n d : Nat) : Nat :=
  let down := n / d
  match compare (2 * (n % d)) d with
  | .lt => down
  | .gt => down + 1
  | .eq => if down % 2 = 0 then down else down + 1

/-- The least significant binary place that a number of the size of `n / d` has room for: the
leading bit of its mantissa counts `2 ^ 52` of them, unless the number is too small for that. -/
def lastPlace (n d : Nat) : Int :=
  let estimate : Int := (n.log2 : Int) - d.log2 - 52
  let fits := n * Nat.pow 2 (-estimate).toNat ≥ 0x10000000000000 * (d * Nat.pow 2 estimate.toNat)
  max (-1074) (if fits then estimate else estimate - 1)

/-- The number nearest to `n / d`. A mantissa that is rounded up to the next power of two counts one
exponent further, which is what the sum of the fields says too. -/
def ofRatio (n d : Nat) : Binary64 :=
  let place := lastPlace n d
  let mantissa := divNearest (n * Nat.pow 2 (-place).toNat) (d * Nat.pow 2 place.toNat)
  let bits := (place + 1074).toNat * 0x10000000000000 + mantissa
  if bits ≥ 0x7FF0000000000000 then infinity else ⟨UInt64.ofNat bits⟩

/-- The decimal rounded to the nearest number. Decimals beyond the range become infinite, and those
too small to tell from zero become zero. -/
def ofScaled (x : Scaled) : Binary64 :=
  let length := (toString x.digits).length
  if x.digits = 0 then zero
  else if (length : Int) + x.exponent > 400 then infinity
  else if (length : Int) + x.exponent < -400 then zero
  else ofRatio (x.digits * Nat.pow 10 x.exponent.toNat) (Nat.pow 10 (-x.exponent).toNat)

theorem same_refl (x : Binary64) : x.same x = true := by simp [same]

theorem same_comm (x y : Binary64) : x.same y = y.same x := by
  simp [same, Bool.and_comm, Bool.beq_comm]

end Binary64

end HighlightGrammar.Decimal

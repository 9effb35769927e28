import HighlightGrammar.Decimal.Binary64

/-! # Shortest decimals

Every finite number stands for the interval of reals that round to it. Its shortest decimal is the
one with the fewest digits in that interval, the nearest to the number among those. Everything is
computed exactly on natural numbers. -/
namespace HighlightGrammar.Decimal

/-- Which of two equally near decimals is taken. -/
inductive Tie where
  | toEven
  | awayFromZero
deriving DecidableEq, Repr

/-- The number `mantissa * 2 ^ exponent`. The gap below it is half the gap above when the mantissa
is the least one of its exponent. -/
structure Fraction where
  mantissa : Nat
  exponent : Int
  narrowBelow : Bool
deriving Repr

/-- The magnitude of a finite number as a fraction. -/
def Binary64.fraction (x : Binary64) : Fraction :=
  let field : Nat := x.magnitude / 0x10000000000000
  let fraction : Nat := x.magnitude % 0x10000000000000
  if field = 0 then ⟨fraction, -1074, false⟩
  else ⟨0x10000000000000 + fraction, (field : Int) - 1075, fraction == 0 && field > 1⟩

/-- Compares `a * 10 ^ i` with `b * 2 ^ j`. -/
def compareScaled (a : Nat) (i : Int) (b : Nat) (j : Int) : Ordering :=
  compare (a * Nat.pow 10 i.toNat * Nat.pow 2 (-j).toNat)
    (b * Nat.pow 2 j.toNat * Nat.pow 10 (-i).toNat)

namespace Fraction

/-- The decimal lies among the reals that round to the number; the ends of that interval belong to
it when the mantissa is even. All is counted in quarters of the last binary place. -/
def readsBack (x : Fraction) (d : Scaled) : Bool :=
  let low := if x.narrowBelow then 4 * x.mantissa - 1 else 4 * x.mantissa - 2
  let above := compareScaled d.digits d.exponent low (x.exponent - 2)
  let below := compareScaled d.digits d.exponent (4 * x.mantissa + 2) (x.exponent - 2)
  let closed := x.mantissa % 2 == 0
  (above == .gt || closed && above == .eq) && (below == .lt || closed && below == .eq)

/-- The number divided by `10 ^ place`, rounded down. -/
def floorAt (x : Fraction) (place : Int) : Nat :=
  x.mantissa * Nat.pow 2 x.exponent.toNat * Nat.pow 10 (-place).toNat /
    (Nat.pow 2 (-x.exponent).toNat * Nat.pow 10 place.toNat)

/-- The two multiples of `10 ^ place` around the number that read back, nearest first. -/
def nearest? (x : Fraction) (tie : Tie) (place : Int) : Option Scaled :=
  let down : Scaled := ⟨x.floorAt place, place⟩
  let up : Scaled := ⟨down.digits + 1, place⟩
  match x.readsBack down, x.readsBack up with
  | true, true =>
    match compareScaled (2 * down.digits + 1) place (2 * x.mantissa) x.exponent with
    | .gt => some down
    | .lt => some up
    | .eq => match tie with
      | .awayFromZero => some up
      | .toEven => if down.digits % 2 = 0 then some down else some up
  | true, false => some down
  | false, true => some up
  | false, false => none

/-- The least power of ten above the number lies at most a step or two above this estimate. -/
def scaleEstimate (x : Fraction) : Int :=
  ((x.mantissa.log2 : Int) + x.exponent) * 30103 / 100000 - 1

/-- The least `k` with the number below `10 ^ k`, searched from an estimate. -/
def scale (x : Fraction) : Int :=
  let candidates := (List.range 5).map fun n : Nat => x.scaleEstimate + n
  match candidates.find? fun k => compareScaled 1 k x.mantissa x.exponent == .gt with
  | some k => k
  | none => x.scaleEstimate + 5

end Fraction

/-- The decimal without the zeros at its end; `fuel` bounds their number. -/
def Scaled.strip : Nat → Scaled → Scaled
  | 0, d => d
  | fuel + 1, d =>
    if d.digits % 10 = 0 ∧ d.digits ≠ 0 then strip fuel ⟨d.digits / 10, d.exponent + 1⟩ else d

/-- The shortest decimal of a finite number other than zero. Seventeen digits always suffice; were
it otherwise, the exact value would be taken. -/
def Fraction.shortest (tie : Tie) (x : Fraction) : Scaled :=
  match (List.range 17).findSome? fun n => x.nearest? tie (x.scale - (n + 1 : Nat)) with
  | some d => d.strip 400
  | none =>
    ⟨x.mantissa * Nat.pow 2 x.exponent.toNat * Nat.pow 5 (-x.exponent).toNat,
      -(-x.exponent).toNat⟩

end HighlightGrammar.Decimal

import HighlightGrammar.Decimal.Shortest

/-! # Number text

A number is written with the digits of its shortest decimal. How they are laid out is a matter of
the format that holds the number, gathered in a `Layout`. -/
namespace HighlightGrammar.Decimal

/-- The decisions of an output format on the text of numbers. -/
structure Layout where
  /-- The exponents of the leading digit that are written with a point and no exponent. -/
  positional : Int → Bool
  /-- Whether a whole number keeps a point and a zero. -/
  pointZero : Bool
  /-- Whether a positive exponent has a sign. -/
  signedExponent : Bool
  tie : Tie
  nan : String
  infinity : String

namespace Layout

/-- The digits with a point set so that the leading one counts `10 ^ lead`. -/
def point (layout : Layout) (digits : List Char) (lead : Int) : List Char :=
  if lead < 0 then
    '0' :: '.' :: List.replicate (-lead - 1).toNat '0' ++ digits
  else
    let whole := lead.toNat + 1
    if digits.length ≤ whole then
      digits ++ List.replicate (whole - digits.length) '0' ++
        (if layout.pointZero then ['.', '0'] else [])
    else digits.take whole ++ '.' :: digits.drop whole

/-- The digits with a point behind the first and an exponent. -/
def scientific (layout : Layout) (digits : List Char) (lead : Int) : List Char :=
  let mantissa := match digits with
    | first :: second :: rest => first :: '.' :: second :: rest
    | short => short
  let sign := if lead < 0 then ['-'] else if layout.signedExponent then ['+'] else []
  mantissa ++ 'e' :: sign ++ (toString lead.natAbs).toList

/-- The text of a decimal other than zero. -/
def decimal (layout : Layout) (d : Scaled) : List Char :=
  let digits := (toString d.digits).toList
  let lead := (digits.length : Int) - 1 + d.exponent
  if layout.positional lead then layout.point digits lead else layout.scientific digits lead

/-- The text of a number. -/
def render (layout : Layout) (x : Binary64) : String :=
  let sign := if x.isNegative then ['-'] else []
  if x.isNaN then layout.nan
  else if x.isInfinite then String.ofList (sign ++ layout.infinity.toList)
  else if x.isZero then String.ofList (sign ++ layout.point ['0'] 0)
  else String.ofList (sign ++ layout.decimal (x.fraction.shortest layout.tie))

end Layout

end HighlightGrammar.Decimal

import HighlightGrammar.Text.Hexadecimal
import HighlightGrammar.Toml.Value

/-! # TOML numbers, truth values, dates and times

Each is told by its text alone. Digits may be grouped by underscores between them. Dates and times
are shown in one form, with `T` between the two and fractions without trailing zeros. -/
namespace HighlightGrammar.Toml

open Decimal Text

/-- Digits without the underscores between them; there is none at either end and none beside
another. -/
def ungroup? (isDigit : Char → Bool) : List Char → Option (List Char)
  | [] => none
  | [c] => if isDigit c then some [c] else none
  | c :: '_' :: rest => if isDigit c then (ungroup? isDigit rest).map (c :: ·) else none
  | c :: d :: rest => if isDigit c then (ungroup? isDigit (d :: rest)).map (c :: ·) else none

/-- Decimal digits that begin with a zero only if they are one zero. -/
def whole? (text : List Char) : Option (List Char) := do
  let digits ← ungroup? Char.isDigit text
  match digits with
  | '0' :: _ :: _ => none
  | _ => some digits

/-- A text without its sign, and whether that is negative. -/
def unsigned : List Char → Bool × List Char
  | '-' :: rest => (true, rest)
  | '+' :: rest => (false, rest)
  | text => (false, text)

/-- The integer that a text stands for; it has to fit into 64 bits. -/
def integer? (text : List Char) : Option Int := do
  let based (base : Nat) (digits : List Char) : Option Nat := do
    digitsValue? base (← ungroup? (fun c => (hexValue? c).any (· < base)) digits)
  let n ← match text with
    | '0' :: 'x' :: digits => (based 16 digits).map Int.ofNat
    | '0' :: 'o' :: digits => (based 8 digits).map Int.ofNat
    | '0' :: 'b' :: digits => (based 2 digits).map Int.ofNat
    | _ => do
      let (negative, digits) := unsigned text
      let n ← digitsValue? 10 (← whole? digits)
      return if negative then -(n : Int) else n
  if -0x8000000000000000 ≤ n ∧ n < 0x8000000000000000 then some n else none

/-- The exponent behind its mark. -/
def exponent? (text : List Char) : Option Int := do
  let (negative, digits) := unsigned text
  let n ← digitsValue? 10 (← ungroup? Char.isDigit digits)
  return if negative then -(n : Int) else n

/-- The number of floating point that a text stands for. It has a fraction, an exponent or both, or
is one of two words. A positive number beyond the range is refused; a negative one is minus
infinity. -/
def float? (text : List Char) : Option Binary64 := do
  let (negative, rest) := unsigned text
  let signed (x : Binary64) : Binary64 := if negative then x.neg else x
  if rest == "inf".toList then return signed .infinity
  else if rest == "nan".toList then return .nan
  else
    let inDigits (c : Char) : Bool := c.isDigit || c == '_'
    let (whole, rest) := rest.span inDigits
    let whole ← whole? whole
    let (fraction, rest) ← match rest with
      | '.' :: rest =>
        let (digits, rest) := rest.span inDigits
        (ungroup? Char.isDigit digits).map fun digits => (digits, rest)
      | rest => some ([], rest)
    let exponent ← match rest with
      | [] => if fraction.isEmpty then none else some 0
      | e :: rest => if e = 'e' ∨ e = 'E' then exponent? rest else none
    let digits ← digitsValue? 10 (whole ++ fraction)
    let x := Binary64.ofScaled ⟨digits, exponent - fraction.length⟩
    if x.isFinite || negative then return signed x else none

/-- A number of exactly so many digits that lies in a range, and what follows it. -/
def fixed? (width least most : Nat) (text : List Char) : Option (Nat × List Char) := do
  let digits := text.take width
  if digits.length = width ∧ digits.all Char.isDigit then
    let n ← digitsValue? 10 digits
    if least ≤ n ∧ n ≤ most then return (n, text.drop width) else none
  else none

/-- A character that has to come next. -/
def expect? (c : Char) : List Char → Option (List Char)
  | d :: rest => if c = d then some rest else none
  | [] => none

def isLeapYear (year : Nat) : Bool :=
  (year % 4 == 0 && year % 100 != 0) || year % 400 == 0

/-- The number of days of a month. -/
def daysOf (year month : Nat) : Nat :=
  if month = 2 then if isLeapYear year then 29 else 28
  else if [4, 6, 9, 11].contains month then 30 else 31

/-- A number with leading zeros. -/
def padded (width n : Nat) : List Char :=
  let digits := (toString n).toList
  List.replicate (width - digits.length) '0' ++ digits

/-- A date, as it is shown, and what follows it. -/
def date? (text : List Char) : Option (List Char × List Char) := do
  let (year, rest) ← fixed? 4 0 9999 text
  let (month, rest) ← fixed? 2 1 12 (← expect? '-' rest)
  let (day, rest) ← fixed? 2 1 (daysOf year month) (← expect? '-' rest)
  return (padded 4 year ++ '-' :: padded 2 month ++ '-' :: padded 2 day, rest)

/-- A fraction of a second: nine digits count, and zeros at the end are not shown. -/
def fraction? (text : List Char) : Option (List Char × List Char) :=
  match text with
  | '.' :: rest =>
    let (digits, rest) := rest.span Char.isDigit
    let shown := ((digits.take 9).reverse.dropWhile (· == '0')).reverse
    if digits.isEmpty then none
    else some (if shown.isEmpty then [] else '.' :: shown, rest)
  | _ => some ([], text)

/-- A time of day, as it is shown, and what follows it. -/
def time? (text : List Char) : Option (List Char × List Char) := do
  let (hour, rest) ← fixed? 2 0 23 text
  let (minute, rest) ← fixed? 2 0 59 (← expect? ':' rest)
  let (second, rest) ← fixed? 2 0 60 (← expect? ':' rest)
  let (fraction, rest) ← fraction? rest
  return (padded 2 hour ++ ':' :: padded 2 minute ++ ':' :: padded 2 second ++ fraction, rest)

/-- A distance from universal time, as it is shown; there may be none. -/
def offset? : List Char → Option (List Char)
  | [] => some []
  | sign :: rest =>
    if rest.isEmpty ∧ (sign = 'Z' ∨ sign = 'z') then some ['Z']
    else if sign = '+' ∨ sign = '-' then do
      let (hour, rest) ← fixed? 2 0 23 rest
      let (minute, rest) ← fixed? 2 0 59 (← expect? ':' rest)
      let shown := if hour = 0 ∧ minute = 0 then '+' else sign
      if rest.isEmpty then return shown :: padded 2 hour ++ ':' :: padded 2 minute else none
    else none

/-- The date, the time or both that a text stands for, as they are shown. -/
def moment? (text : List Char) : Option (List Char) :=
  match date? text with
  | some (date, []) => some date
  | some (date, mark :: rest) =>
    if mark = 'T' ∨ mark = 't' ∨ mark = ' ' then do
      let (time, rest) ← time? rest
      return date ++ 'T' :: time ++ (← offset? rest)
    else none
  | none =>
    match time? text with
    | some (time, []) => some time
    | _ => none

/-- The value that a text without quotes stands for. -/
def scalar? (text : List Char) : Option Value :=
  if text == "true".toList then some (.boolean true)
  else if text == "false".toList then some (.boolean false)
  else match moment? text, integer? text, float? text with
    | some moment, _, _ => some (.moment (String.ofList moment))
    | none, some n, _ => some (.integer n)
    | none, none, some x => some (.float x)
    | none, none, none => none

end HighlightGrammar.Toml

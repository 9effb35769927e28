import HighlightGrammar.Text.Hexadecimal
import HighlightGrammar.Tree
import HighlightGrammar.Yaml.Character

/-! # Plain scalars

A scalar without quotes and without a tag is null, a truth value, a number or a string, told by its
text alone. Integers are read in four bases; those that need more than 64 bits are refused as long
as they fit into 128, and are numbers of floating point beyond. -/
namespace HighlightGrammar.Yaml

open Decimal Text

/-- What a plain text stands for. -/
inductive Resolution where
  | tree (value : Tree)
  /-- An integer that no document can hold. -/
  | outOfRange

/-- The texts that stand for null; the empty text does so as well. -/
def isNullText (text : List Char) : Bool :=
  ["null", "Null", "NULL", "~"].any fun word => word.toList == text

def boolText? (text : List Char) : Option Bool :=
  if ["true", "True", "TRUE"].any (fun word => word.toList == text) then some true
  else if ["false", "False", "FALSE"].any (fun word => word.toList == text) then some false
  else none

/-- Several digits of which the first is a zero, with or without a sign: a text, not a number. -/
def isZeroLed (text : List Char) : Bool :=
  let digits := match text with
    | '-' :: rest => rest
    | '+' :: rest => rest
    | _ => text
  match digits with
  | '0' :: c :: rest => (c :: rest).all Char.isDigit
  | _ => false

/-- The number of an unsigned text: decimal digits, or digits of another base behind its mark. -/
def magnitude? (text : List Char) : Option Nat :=
  match text with
  | '0' :: 'x' :: rest => digitsValue? 16 rest
  | '0' :: 'o' :: rest => digitsValue? 8 rest
  | '0' :: 'b' :: rest => digitsValue? 2 rest
  | _ => if isZeroLed text then none else digitsValue? 10 text

/-- The integer that a text stands for. -/
def integer? : List Char → Option Int
  | '-' :: rest => (magnitude? rest).map fun n => -(n : Int)
  | '+' :: rest => (magnitude? rest).map fun n => (n : Int)
  | text => (magnitude? text).map fun n => (n : Int)

/-- A decimal with a point, an exponent or both, without a sign. -/
def decimal? (text : List Char) : Option Scaled :=
  let (whole, rest) := text.span Char.isDigit
  let (part, rest) := match rest with
    | '.' :: rest => rest.span Char.isDigit
    | rest => ([], rest)
  let mantissa := whole ++ part
  let scaled (exponent : Int) : Option Scaled :=
    (digitsValue? 10 mantissa).map fun n => ⟨n, exponent - part.length⟩
  match rest with
  | [] => scaled 0
  | e :: rest =>
    if e = 'e' ∨ e = 'E' then
      match rest with
      | '-' :: digits => (digitsValue? 10 digits).bind fun n => scaled (-(n : Int))
      | '+' :: digits => (digitsValue? 10 digits).bind fun n => scaled n
      | digits => (digitsValue? 10 digits).bind fun n => scaled n
    else none

/-- The number of floating point that a text stands for. Decimals that overflow stand for none;
infinity and not-a-number have words of their own. -/
def float? (text : List Char) : Option Binary64 :=
  let finite (x : Binary64) : Option Binary64 := if x.isFinite then some x else none
  let words (list : List String) (text : List Char) := list.any fun word => word.toList == text
  let infinity := words [".inf", ".Inf", ".INF"]
  if words [".nan", ".NaN", ".NAN"] text then some .nan
  else match text with
    | '-' :: rest =>
      if infinity rest then some Binary64.infinity.neg
      else (decimal? rest).bind fun d => finite (Binary64.ofScaled d).neg
    | '+' :: rest =>
      if infinity rest then some Binary64.infinity
      else (decimal? rest).bind fun d => finite (Binary64.ofScaled d)
    | _ =>
      if infinity text then some Binary64.infinity
      else (decimal? text).bind fun d => finite (Binary64.ofScaled d)

/-- The number of floating point or else the string that a text stands for. -/
def floatOrString (text : List Char) : Tree :=
  match if isZeroLed text then none else float? text with
  | some x => .number (.float x)
  | none => .string (String.ofList text)

/-- An integer of a document: 64 bits with or without a sign. -/
def fits64 (n : Int) : Bool := -0x8000000000000000 ≤ n && n < 0x10000000000000000

/-- Whether 128 bits hold an integer. -/
def fits128 (n : Int) : Bool :=
  -0x80000000000000000000000000000000 ≤ n && n < 0x100000000000000000000000000000000

/-- What a plain text stands for. -/
def resolve (text : List Char) : Resolution :=
  if text.isEmpty || isNullText text then .tree .null
  else match boolText? text, integer? text with
    | some value, _ => .tree (.bool value)
    | none, some n =>
      if fits64 n then .tree (.number (.int n))
      else if fits128 n then .outOfRange
      else .tree (floatOrString text)
    | none, none => .tree (floatOrString text)

/-- Whether a plain text would not be read as a string, or only just. -/
def isAmbiguous (text : List Char) : Bool :=
  isZeroLed text ||
    match resolve text with
    | .tree (.string _) => false
    | _ => true

end HighlightGrammar.Yaml

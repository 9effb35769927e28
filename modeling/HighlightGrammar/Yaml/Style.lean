import HighlightGrammar.Text.Hexadecimal
import HighlightGrammar.Yaml.Scalar

/-! # The style of strings

Every string is written in one of four styles, chosen by its characters alone. A string of several
lines is literal if it can be; one that would be read as something else, or whose characters mean
something in a block, is quoted; and what quotes cannot hold as it is stands between double quotes
with escapes. -/
namespace HighlightGrammar.Yaml

open Text

/-- How a string is written. -/
inductive Style where
  | plain
  | singleQuoted
  | doubleQuoted
  | literal
deriving DecidableEq, Repr

def isSpace (c : Char) : Bool := c == ' '

/-- Characters that begin something else than a plain scalar. -/
def isIndicator (c : Char) : Bool := "#,[]\x7b\x7d&*!|>'\"%@`".toList.contains c

/-- Whether a text begins like something else than a plain scalar. -/
def beginsOtherwise : List Char → Bool
  | '-' :: '-' :: '-' :: _ => true
  | '.' :: '.' :: '.' :: _ => true
  | c :: rest => isIndicator c || ((c == '?' || c == ':' || c == '-') && atBlankOrEnd rest)
  | [] => false

/-- Whether a text holds a colon in front of a blank or a number sign behind one; `afterBlank` tells
what stands in front of it. -/
def holdsIndicator (afterBlank : Bool) : List Char → Bool
  | [] => false
  | c :: rest =>
    (c == ':' && atBlankOrEnd rest) || (c == '#' && afterBlank) ||
      holdsIndicator (isBlank c || isBreak c) rest

/-- Whether somewhere a character of the first kind stands directly before one of the second. -/
def holdsPair (first second : Char → Bool) : List Char → Bool
  | c :: d :: rest => (first c && second d) || holdsPair first second (d :: rest)
  | _ => false

/-- Whether a text has to be written with escapes: some character may not stand for itself, or a
space would be lost at the end of a line. -/
def needsEscapes (text : List Char) : Bool :=
  text.any (fun c => !isPrintable c) || holdsPair isSpace isBreak text

/-- Whether a text of one line keeps its meaning without quotes. -/
def plainAllowed (text : List Char) : Bool :=
  !(beginsOtherwise text || holdsIndicator false (text.drop 1) || text.any isBreak ||
    text.head?.any isSpace || text.getLast?.any isSpace)

/-- The style between quotes: single ones unless a line would begin with a space. -/
def quotedStyle (text : List Char) : Style :=
  if needsEscapes text || holdsPair isBreak isSpace text then .doubleQuoted else .singleQuoted

/-- The style of a string. -/
def styleOf (text : List Char) : Style :=
  if text.contains '\n' then
    if needsEscapes text || text.getLast?.any isSpace then .doubleQuoted else .literal
  else if isAmbiguous text || needsEscapes text || !plainAllowed text then quotedStyle text
  else .plain

/-- What stands for a character between double quotes. -/
def escape (c : Char) : List Char :=
  let code := c.toNat
  if code = 0x00 then ['\\', '0']
  else if code = 0x07 then ['\\', 'a']
  else if code = 0x08 then ['\\', 'b']
  else if code = 0x09 then ['\\', 't']
  else if code = 0x0A then ['\\', 'n']
  else if code = 0x0B then ['\\', 'v']
  else if code = 0x0C then ['\\', 'f']
  else if code = 0x0D then ['\\', 'r']
  else if code = 0x1B then ['\\', 'e']
  else if c = '"' then ['\\', '"']
  else if c = '\\' then ['\\', '\\']
  else if code = 0x85 then ['\\', 'N']
  else if code = 0x2028 then ['\\', 'L']
  else if code = 0x2029 then ['\\', 'P']
  else if isPrintable c then [c]
  else if code ≤ 0xFF then '\\' :: 'x' :: hexDigits 2 code
  else if code ≤ 0xFFFF then '\\' :: 'u' :: hexDigits 4 code
  else '\\' :: 'U' :: hexDigits 8 code

/-- A text between double quotes. -/
def doubleQuoted (text : List Char) : List Char := '"' :: text.flatMap escape ++ ['"']

/-- The inside of single quotes: a quote is written twice, and a line that follows a break is set in
by `indent`. -/
def singleQuotedLines (indent : Nat) (afterBreak : Bool) : List Char → List Char
  | [] => if afterBreak then List.replicate indent ' ' else []
  | c :: rest =>
    if isBreak c then c :: singleQuotedLines indent true rest
    else (if afterBreak then List.replicate indent ' ' else []) ++
      (if c = '\'' then ['\'', '\''] else [c]) ++ singleQuotedLines indent false rest

/-- A text between single quotes. -/
def singleQuoted (indent : Nat) (text : List Char) : List Char :=
  '\'' :: singleQuotedLines indent false text ++ ['\'']

/-- The lines of a literal text, each that is not empty set in by `indent`. -/
def literalLines (indent : Nat) (atStart : Bool) : List Char → List Char
  | [] => []
  | c :: rest =>
    if isBreak c then c :: literalLines indent true rest
    else (if atStart then List.replicate indent ' ' else []) ++ c :: literalLines indent false rest

/-- What the head of a literal text says about the breaks at its end: one is the rule, none is
stripped, more are kept. -/
def chomping (text : List Char) : List Char :=
  match text.reverse with
  | [] => ['-']
  | [c] => if isBreak c then ['+'] else ['-']
  | c :: d :: _ => if !isBreak c then ['-'] else if isBreak d then ['+'] else []

/-- A text of several lines with its head. The depth is told where the text begins with a blank
line or a space. -/
def literal (indent : Nat) (text : List Char) : List Char :=
  let depth := if text.head?.any fun c => isSpace c || isBreak c then ['2'] else []
  '|' :: depth ++ chomping text ++ '\n' :: literalLines indent true text

/-- A string in its style, its further lines set in by `indent`. -/
def stringText (indent : Nat) (text : List Char) : List Char :=
  match styleOf text with
  | .plain => text
  | .singleQuoted => singleQuoted indent text
  | .doubleQuoted => doubleQuoted text
  | .literal => literal indent text

end HighlightGrammar.Yaml

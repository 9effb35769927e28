import HighlightGrammar.Tree

/-! # JSON text

A tree is written over several lines, two blanks to a level. Keys become texts: strings as they
are, numbers and truth values by their text; a tagged value becomes an object with the tag as its
only key. -/
namespace HighlightGrammar.Json

open Decimal

/-- A key that has no text. -/
inductive KeyError where
  | notText
  | notFinite
deriving DecidableEq, Repr

def KeyError.message : KeyError → String
  | notText => "key must be a string"
  | notFinite => "float key must be finite (got NaN or +/-inf)"

/-- JSON numbers are laid out as in documents, but a positive exponent has a sign. -/
def layout : Layout := { Number.layout with signedExponent := true }

/-- The digit of a hexadecimal place. -/
def hexDigit (n : Nat) : Char := if n < 10 then Char.ofNat (48 + n) else Char.ofNat (87 + n)

/-- What stands for a character between quotes. -/
def escape (c : Char) : List Char :=
  if c = '"' then ['\\', '"']
  else if c = '\\' then ['\\', '\\']
  else if c = '\n' then ['\\', 'n']
  else if c = '\r' then ['\\', 'r']
  else if c = '\t' then ['\\', 't']
  else if c.toNat = 0x08 then ['\\', 'b']
  else if c.toNat = 0x0C then ['\\', 'f']
  else if c.toNat < 0x20 then
    ['\\', 'u', '0', '0', hexDigit (c.toNat / 16), hexDigit (c.toNat % 16)]
  else [c]

/-- A text between quotes. -/
def quote (text : String) : String :=
  String.ofList ('"' :: text.toList.flatMap escape ++ ['"'])

/-- The text of a number; those that are not finite have none. -/
def number : Number → String
  | .int value => toString value
  | .float value => if value.isFinite then layout.render value else "null"

/-- The text that a key becomes. -/
def key : Tree → Except KeyError String
  | .string text => .ok text
  | .bool value => .ok (if value then "true" else "false")
  | .number (.int value) => .ok (toString value)
  | .number (.float value) =>
    if value.isFinite then .ok (layout.render value) else .error .notFinite
  | _ => .error .notText

/-- A line break and the blanks of a level. -/
def newLine (level : Nat) : String := String.ofList ('\n' :: List.replicate (2 * level) ' ')

/-- Items on lines of their own between two brackets. -/
def block (left right : String) (level : Nat) (items : List String) : String :=
  if items.isEmpty then left ++ right
  else left ++ newLine (level + 1) ++ ("," ++ newLine (level + 1)).intercalate items ++
    newLine level ++ right

mutual

/-- The text of a tree that stands at a level. -/
def writeAt (level : Nat) : Tree → Except KeyError String
  | .null => .ok "null"
  | .bool value => .ok (if value then "true" else "false")
  | .number value => .ok (number value)
  | .string text => .ok (quote text)
  | .sequence items => do return block "[" "]" level (← writeItems (level + 1) items)
  | .mapping entries => do return block "\x7b" "\x7d" level (← writeEntries (level + 1) entries)
  | .tagged tag content => do
    let content ← writeAt (level + 1) content
    return block "\x7b" "\x7d" level [quote ("!" ++ tag) ++ ": " ++ content]
termination_by structural tree => tree

def writeItems (level : Nat) : List Tree → Except KeyError (List String)
  | [] => .ok []
  | item :: items => do
    let item ← writeAt level item
    return item :: (← writeItems level items)
termination_by structural items => items

def writeEntries (level : Nat) : List (Tree × Tree) → Except KeyError (List String)
  | [] => .ok []
  | (name, value) :: rest => do
    let name ← key name
    let value ← writeAt level value
    return (quote name ++ ": " ++ value) :: (← writeEntries level rest)
termination_by structural entries => entries

end

/-- The text of a tree. -/
def write (tree : Tree) : Except KeyError String := writeAt 0 tree

end HighlightGrammar.Json

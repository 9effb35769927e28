/-! # Placeholders

A placeholder is a name between two pairs of braces. Any text without braces can be the name. -/
namespace HighlightGrammar.Placeholder

/-- A character that may stand in the name of a placeholder. -/
def isNameChar (c : Char) : Bool := c != '{' && c != '}'

/-- The placeholder of a name. -/
def write (name : List Char) : List Char := '{' :: '{' :: name ++ ['}', '}']

/-- The name of the placeholder that a text starts with. -/
def nameAtFront? : List Char → Option (List Char)
  | '{' :: '{' :: rest =>
    match rest.span isNameChar with
    | (name, '}' :: '}' :: _) => some name
    | _ => none
  | _ => none

/-- The names of the placeholders in a text, found from left to right, each behind the one before
it; the first `skip` characters belong to one that has been found. -/
def namesFrom : Nat → List Char → List (List Char)
  | _, [] => []
  | skip + 1, _ :: rest => namesFrom skip rest
  | 0, c :: rest =>
    match nameAtFront? (c :: rest) with
    | some name => name :: namesFrom (name.length + 3) rest
    | none => namesFrom 0 rest

/-- The names of the placeholders in a text, from left to right. -/
def names (text : String) : List String := (namesFrom 0 text.toList).map String.ofList

end HighlightGrammar.Placeholder

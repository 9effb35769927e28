import HighlightGrammar.Grammar.RulePath
import HighlightGrammar.Tree

/-! # Property lists

A property list has no null, and its dictionaries have texts as keys. A tree is converted place by
place: tags are dropped, and the first place in document order that has no counterpart is reported.
The text of a property list is XML with one tabulator to a level. -/
namespace HighlightGrammar

open Decimal

/-- A property list. -/
inductive PropertyList where
  | boolean (value : Bool)
  | integer (value : Int)
  | real (value : Binary64)
  | string (text : String)
  | array (items : List PropertyList)
  | dictionary (entries : List (String × PropertyList))
deriving Inhabited

namespace PropertyList

/-- A place of a tree that has no counterpart in a property list. -/
inductive Problem where
  | nullValue (path : RulePath)
  /-- A key of the mapping at `path`. -/
  | badKey (path : RulePath) (found : String)
deriving DecidableEq, Repr

def Problem.message : Problem → String
  | nullValue path => s!"{path}: property lists cannot hold null values"
  | badKey path found => s!"{path}: property list keys must be strings, found {found}"

mutual

/-- The property list of the tree at `path`. Of two keys with one text the later value stays, at
the place of the earlier one. -/
def ofTreeAt (path : RulePath) : Tree → Except Problem PropertyList
  | .null => .error (.nullValue path)
  | .bool value => .ok (.boolean value)
  | .number (.int value) => .ok (.integer value)
  | .number (.float value) => .ok (.real value)
  | .string text => .ok (.string text)
  | .sequence items => do return .array (← itemsOfTrees path 0 items)
  | .mapping entries => do
    return .dictionary (Table.ofList (· == ·) (← entriesOfTrees path entries))
  | .tagged _ content => ofTreeAt path content
termination_by structural tree => tree

def itemsOfTrees (path : RulePath) (start : Nat) : List Tree → Except Problem (List PropertyList)
  | [] => .ok []
  | item :: items => do
    let item ← ofTreeAt (path.item start) item
    return item :: (← itemsOfTrees path (start + 1) items)
termination_by structural items => items

def entriesOfTrees (path : RulePath) :
    List (Tree × Tree) → Except Problem (List (String × PropertyList))
  | [] => .ok []
  | (key, value) :: rest =>
    match key.name? with
    | none => .error (.badKey path key.describe)
    | some name => do
      let value ← ofTreeAt (path.child name) value
      return (name, value) :: (← entriesOfTrees path rest)
termination_by structural entries => entries

end

/-- The property list of a whole tree. -/
def ofTree (tree : Tree) : Except Problem PropertyList := ofTreeAt .root tree

/-- Reals are always written positionally, whole ones without a point. -/
def layout : Layout where
  positional := fun _ => true
  pointZero := false
  signedExponent := false
  tie := .awayFromZero
  nan := "NaN"
  infinity := "inf"

/-- What stands for a character in the text of an element. -/
def escape (c : Char) : List Char :=
  if c = '<' then "&lt;".toList
  else if c = '>' then "&gt;".toList
  else if c = '&' then "&amp;".toList
  else if c = '\'' then "&apos;".toList
  else if c = '"' then "&quot;".toList
  else if c = '\r' then "&#13;".toList
  else [c]

/-- An element with a text. -/
def element (name text : String) : String :=
  s!"<{name}>" ++ String.ofList (text.toList.flatMap escape) ++ s!"</{name}>"

/-- A line of its own at a level. -/
def line (level : Nat) (text : String) : String :=
  String.ofList (List.replicate level '\t') ++ text ++ "\n"

/-- Lines between the tags of an element; an element without any is a single tag. -/
def block (level : Nat) (name : String) (lines : List String) : String :=
  if lines.isEmpty then line level s!"<{name}/>"
  else line level s!"<{name}>" ++ String.join lines ++ line level s!"</{name}>"

mutual

/-- The lines of a property list that stands at a level. -/
def writeAt (level : Nat) : PropertyList → String
  | boolean value => line level (if value then "<true/>" else "<false/>")
  | integer value => line level (element "integer" (toString value))
  | real value => line level (element "real" (layout.render value))
  | string text => line level (element "string" text)
  | array items => block level "array" (writeItems (level + 1) items)
  | dictionary entries => block level "dict" (writeEntries (level + 1) entries)
termination_by structural list => list

def writeItems (level : Nat) : List PropertyList → List String
  | [] => []
  | item :: items => writeAt level item :: writeItems level items
termination_by structural items => items

def writeEntries (level : Nat) : List (String × PropertyList) → List String
  | [] => []
  | (name, value) :: rest =>
    line level (element "key" name) :: writeAt level value :: writeEntries level rest
termination_by structural entries => entries

end

/-- What stands in front of the root. -/
def prologue : String :=
  "<?xml version=\"1.0\" encoding=\"UTF-8\"?>\n" ++
  "<!DOCTYPE plist PUBLIC \"-//Apple//DTD PLIST 1.0//EN\" " ++
  "\"http://www.apple.com/DTDs/PropertyList-1.0.dtd\">\n" ++
  "<plist version=\"1.0\">\n"

/-- The text of a property list. -/
def write (list : PropertyList) : String := prologue ++ list.writeAt 0 ++ "</plist>"

end PropertyList

end HighlightGrammar

import HighlightGrammar.Settings.Value

/-! # Paths to settings

A path names a setting: a key, and then keys behind dots and positions in brackets. Setting a value
at a path makes what is missing on the way, and replaces what cannot hold it. -/
namespace HighlightGrammar

/-- A step from a setting to one in it. -/
inductive KeyStep where
  | child (key : String)
  /-- A position, counted from the end if it is negative. -/
  | position (index : Int)
deriving DecidableEq, Repr

/-- A path to a setting. -/
structure KeyPath where
  first : String
  steps : List KeyStep
deriving DecidableEq, Repr

namespace KeyPath

/-- Characters of the keys in a path. -/
def isKeyChar (c : Char) : Bool := c.isAlphanum || c == ' ' || c == '_' || c == '-'

/-- Characters that may stand around a position. -/
def isGapChar (c : Char) : Bool := c == ' ' || c == '\t'

/-- Reads a key. -/
def readKey (text : List Char) : Option (String × List Char) :=
  let (key, rest) := text.span isKeyChar
  if key.isEmpty then none else some (String.ofList key, rest)

/-- Reads a position with its closing bracket. -/
def readPosition (text : List Char) : Option (Int × List Char) :=
  let text := text.dropWhile isGapChar
  let (negative, text) := match text with
    | '-' :: rest => (true, rest)
    | _ => (false, text)
  let (digits, rest) := text.span Char.isDigit
  let n : Nat := digits.foldl (fun n c => n * 10 + (c.toNat - 48)) 0
  match rest.dropWhile isGapChar with
  | ']' :: rest =>
    if digits.isEmpty ∨ n ≥ 0x8000000000000000 then none
    else some (if negative then -(n : Int) else n, rest)
  | _ => none

/-- Reads the steps of a path to the end of the text; each takes a character. -/
def readSteps : Nat → List Char → Option (List KeyStep)
  | _, [] => some []
  | 0, _ => none
  | fuel + 1, '.' :: rest => do
    let (key, rest) ← readKey rest
    return .child key :: (← readSteps fuel rest)
  | fuel + 1, '[' :: rest => do
    let (index, rest) ← readPosition rest
    return .position index :: (← readSteps fuel rest)
  | _, _ => none

/-- The path that a text stands for. -/
def parse? (text : String) : Option KeyPath := do
  let (first, rest) ← readKey text.toList
  return ⟨first, ← readSteps rest.length rest⟩

/-- The place that a position stands for in a list. -/
def placeIn (length : Nat) (index : Int) : Nat :=
  if index < 0 then length - index.natAbs else index.toNat

/-- A list that reaches up to a place. -/
def reaching (items : List Setting) (place : Nat) : List Setting :=
  items ++ List.replicate (place + 1 - items.length) Setting.nothing

/-- Sets a value behind steps from a setting. -/
def setBehind (value : Setting) : List KeyStep → Setting → Setting
  | [], _ => value
  | [.child key], setting => setting.lay key value
  | .child key :: steps, setting =>
    let name := Text.lower key
    setting.put name (setBehind value steps ((setting.get? name).getD .nothing))
  | .position index :: steps, setting =>
    let (origin, items) := match setting with
      | .array origin items => (origin, items)
      | _ => (none, [])
    let place := placeIn items.length index
    let items := reaching items place
    .array origin (items.modify place (setBehind value steps))

/-- Sets a value at a path in a table. -/
def set (path : KeyPath) (value root : Setting) : Setting :=
  match path.steps with
  | [] => root.lay path.first value
  | steps =>
    let name := Text.lower path.first
    root.put name (setBehind value steps ((root.get? name).getD .nothing))

end KeyPath

namespace Setting

/-- Lays the entries of a file over a table. A key that reads as a path is taken for one. -/
def layFile (root : Setting) (entries : List (String × Setting)) : Setting :=
  entries.foldl (fun root (key, value) =>
    match KeyPath.parse? key with
    | some path => path.set value root
    | none => root.lay key value) root

end Setting

end HighlightGrammar

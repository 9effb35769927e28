import HighlightGrammar.Yaml.Outline
import HighlightGrammar.Yaml.Style

/-! # YAML text

A tree is written in block style, two blanks to a level; sequences that are values of a mapping are
not set in. Lines are never folded. A key is written in front of a colon if it takes one line of at
most 128 bytes, and otherwise behind a question mark.

A tree of which a fault is found in its outline has no text. -/
namespace HighlightGrammar.Yaml

open Text

/-- Bytes that a tag may hold as they are. -/
def isTagByte (b : UInt8) : Bool :=
  let c := Char.ofNat b.toNat
  isWordChar c || ";/?:@&=+$,.~*'()[]".toList.contains c

/-- A byte of a tag, escaped if need be. -/
def tagByte (b : UInt8) : List Char :=
  if isTagByte b then [Char.ofNat b.toNat] else '%' :: hexDigits 2 b.toNat

/-- The characters of a tag, from its name: an exclamation mark stands in front, and the tag ends in
front of a zero character. -/
def fullTag (name : String) : List Char :=
  let text := match name.toList with
    | '!' :: rest => '!' :: rest
    | rest => '!' :: rest
  text.takeWhile (· ≠ '\x00')

/-- A tag as it stands in a text, from its name. A tag that is one exclamation mark would be read as
a handle and is set between angle brackets. -/
def tagText (name : String) : List Char :=
  let bytes (text : List Char) := (String.ofList text).toUTF8.toList.flatMap tagByte
  match fullTag name with
  | ['!'] => "!<".toList ++ bytes ['!'] ++ ['>']
  | tag => '!' :: bytes (tag.drop 1)

/-- The number of bytes that a tag adds to a key. -/
def tagLength (name : String) : Nat := (String.ofList (fullTag name)).utf8ByteSize

/-- What stands in front of a node. -/
inductive Place where
  /-- Nothing: the node is the document. -/
  | root
  /-- The dash of an item. -/
  | item
  /-- The question mark or the colon of a key or value on a line of its own. -/
  | own
  /-- The colon behind a short key. -/
  | value
deriving DecidableEq, Repr

/-- A text that is being written, last character first. -/
abbrev Written := List Char

namespace Written

def put (out : Written) (text : List Char) : Written := text.reverse ++ out

/-- Begins a line at a column, unless one has begun. -/
def line (out : Written) (column : Nat) : Written :=
  let out : Written := match out with
    | [] => []
    | c :: _ => if isBreak c then out else '\n' :: out
  out.put (List.replicate column ' ')

end Written

/-- The text of a tree that takes no lines of its own: a scalar or an empty collection. The further
lines of a string are set in by `indent`. -/
def inline? (indent : Nat) : Tree → Option (List Char)
  | .null => some "null".toList
  | .bool value => some (if value then "true".toList else "false".toList)
  | .number value => some value.text.toList
  | .string text => some (stringText indent text.toList)
  | .sequence [] => some ['[', ']']
  | .mapping [] => some ['\x7b', '\x7d']
  | _ => none

/-- The number of bytes by which a key is judged; a key of several lines has none. -/
def keyLength? : Tree → Option Nat
  | .null => some 4
  | .bool value => some (if value then 4 else 5)
  | .number value => some value.text.utf8ByteSize
  | .string text => if text.toList.any isBreak then none else some text.utf8ByteSize
  | .sequence [] => some 0
  | .mapping [] => some 0
  | _ => none

/-- Whether a key is written in front of a colon. -/
def isShortKey : Tree → Bool
  | .tagged tag content => (keyLength? content).any fun n => n + tagLength tag ≤ 128
  | tree => (keyLength? tree).any (· ≤ 128)

/-- A short key. -/
def shortKey (indent : Nat) : Tree → List Char
  | .tagged tag content => tagText tag ++ ' ' :: (inline? indent content).getD []
  | tree => (inline? indent tree).getD []

/-- The column of the entries of a mapping below a node at column `outer`. -/
def mappingColumn : Option Nat → Nat
  | none => 0
  | some outer => outer + 2

/-- The column of the items of a sequence. It is that of the mapping around it when the sequence
begins on a line of its own. -/
def sequenceColumn (outer : Option Nat) (place : Place) (tagged : Bool) : Nat :=
  match outer, place with
  | none, _ => 0
  | some outer, .value => outer
  | some outer, .own => if tagged then outer else outer + 2
  | some outer, _ => outer + 2

/-- Whether the first entry of a collection stands on the line of the node. -/
def beginsInline (place : Place) (tagged : Bool) : Bool :=
  !tagged && (place == .item || place == .own)

/-- A piece behind what stands in front of the node. -/
def putPiece (place : Place) (tagged : Bool) (piece : List Char) (out : Written) : Written :=
  if place = .root ∧ !tagged then out.put piece else out.put (' ' :: piece)

mutual

/-- Writes a node of the collection at column `outer`; `tagged` tells that its tag is written. -/
def writeNode (outer : Option Nat) (place : Place) (tagged : Bool) : Tree → Written → Written
  | .tagged tag content, out =>
    writeNode outer place true content (putPiece place tagged (tagText tag) out)
  | .sequence (item :: items), out =>
    let column := sequenceColumn outer place tagged
    let start := if beginsInline place tagged then out.put [' '] else out.line column
    writeItems column items (writeNode (some column) .item false item (start.put ['-']))
  | .mapping ((key, value) :: entries), out =>
    let column := mappingColumn outer
    let start := if beginsInline place tagged then out.put [' '] else out.line column
    let out :=
      if isShortKey key then
        writeNode (some column) .value false value (start.put (shortKey (column + 2) key ++ [':']))
      else
        let out := writeNode (some column) .own false key (start.put ['?'])
        writeNode (some column) .own false value ((out.line column).put [':'])
    writeEntries column entries out
  | tree, out => putPiece place tagged ((inline? (mappingColumn outer) tree).getD []) out
termination_by structural tree => tree

/-- Writes the items of a sequence, each on a line of its own. -/
def writeItems (column : Nat) : List Tree → Written → Written
  | [], out => out
  | item :: items, out =>
    writeItems column items
      (writeNode (some column) .item false item ((out.line column).put ['-']))
termination_by structural items => items

/-- Writes the entries of a mapping, each on a line of its own. -/
def writeEntries (column : Nat) : List (Tree × Tree) → Written → Written
  | [], out => out
  | (key, value) :: entries, out =>
    let start := out.line column
    let out :=
      if isShortKey key then
        writeNode (some column) .value false value (start.put (shortKey (column + 2) key ++ [':']))
      else
        let out := writeNode (some column) .own false key (start.put ['?'])
        writeNode (some column) .own false value ((out.line column).put [':'])
    writeEntries column entries out
termination_by structural entries => entries

end

/-- The text of a tree. -/
def write (tree : Tree) : Except WriteError String :=
  match fault? tree with
  | some error => .error error
  | none => .ok (String.ofList ((writeNode none .root false tree []).line 0).reverse)

end HighlightGrammar.Yaml

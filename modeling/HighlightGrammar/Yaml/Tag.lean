import HighlightGrammar.Text.Hexadecimal
import HighlightGrammar.Yaml.Character

/-! # Tags

A tag is written as a handle and a suffix. The handle stands for the text that a directive has given
to it; two handles have such a text from the start. The suffix may hold escaped bytes, so a tag is a
list of bytes; a text of a tag ends in front of its first zero byte. A tag whose text begins with an
exclamation mark is local: it names a kind of value of the document's own. Some other tags ask for a
scalar type, and the rest say nothing. -/
namespace HighlightGrammar.Yaml

open Text

/-- A tag as it is written. -/
structure WrittenTag where
  handle : List Char
  suffix : List UInt8
deriving DecidableEq, Repr

/-- The bytes of ASCII text. -/
def asciiBytes (text : List Char) : List UInt8 := text.map fun c => UInt8.ofNat c.toNat

/-- Characters of the text of a tag; some of them only inside angle brackets. -/
def isTagChar (verbatim : Bool) (c : Char) : Bool :=
  isWordChar c || ";/?:@&=+$.!~*'()".toList.contains c || (verbatim && ",[]".toList.contains c)

/-- The byte that an escape stands for. -/
def escapedByte? : List Char → Option Nat
  | '%' :: a :: b :: _ => do return (← hexValue? a) * 16 + (← hexValue? b)
  | _ => none

/-- The number of bytes that follow the first byte of a character. -/
def followers? (byte : Nat) : Option Nat :=
  if byte < 0x80 then some 0
  else if 0xC0 ≤ byte ∧ byte < 0xE0 then some 1
  else if 0xE0 ≤ byte ∧ byte < 0xF0 then some 2
  else if 0xF0 ≤ byte ∧ byte < 0xF8 then some 3
  else none

/-- Reads the characters of a tag. The first `skip` characters have been dealt with, and `due` bytes
have still to be escaped to complete a character. -/
def readTagBytes (verbatim : Bool) : Nat → Nat → List Char → Option (List UInt8 × List Char)
  | _, due, [] => if due = 0 then some ([], []) else none
  | skip + 1, due, _ :: rest => readTagBytes verbatim skip due rest
  | 0, due, c :: rest =>
    if c = '%' then do
      let byte ← escapedByte? (c :: rest)
      let due ← if due = 0 then followers? byte
        else if 0x80 ≤ byte ∧ byte < 0xC0 then some (due - 1) else none
      let (bytes, rest) ← readTagBytes verbatim 2 due rest
      return (UInt8.ofNat byte :: bytes, rest)
    else if due ≠ 0 then none
    else if isTagChar verbatim c then
      (readTagBytes verbatim 0 0 rest).map fun (bytes, rest) => (UInt8.ofNat c.toNat :: bytes, rest)
    else some ([], c :: rest)

/-- The bytes in front of the first zero byte. -/
def untilZero (bytes : List UInt8) : List UInt8 := bytes.takeWhile (· ≠ 0)

/-- Reads the characters of a tag, of which there has to be one. -/
def readTagText (verbatim : Bool) (text : List Char) : Option (List UInt8 × List Char) := do
  let (bytes, rest) ← readTagBytes verbatim 0 0 text
  if bytes.isEmpty then none else return (untilZero bytes, rest)

/-- Reads an exclamation mark, the word characters behind it, and another mark if it follows. -/
def readHandle : List Char → Option (List Char × List Char)
  | '!' :: rest =>
    match rest.span isWordChar with
    | (word, '!' :: rest) => some ('!' :: word ++ ['!'], rest)
    | (word, rest) => some ('!' :: word, rest)
  | _ => none

/-- Whether a handle ends in a mark of its own. -/
def isClosedHandle (handle : List Char) : Bool :=
  handle.length ≥ 2 && handle.getLast? == some '!'

/-- Reads a tag: between angle brackets as it is, behind a closed handle, or behind one exclamation
mark, which alone is a tag as well. -/
def readTag (text : List Char) : Option (WrittenTag × List Char) :=
  match text with
  | '!' :: '<' :: rest => do
    let (bytes, rest) ← readTagText true rest
    match rest with
    | '>' :: rest => return (⟨[], bytes⟩, rest)
    | _ => none
  | _ => do
    let (handle, rest) ← readHandle text
    if isClosedHandle handle then
      let (bytes, rest) ← readTagText false rest
      return (⟨handle, bytes⟩, rest)
    else
      let (bytes, rest) ← readTagBytes false 0 0 rest
      let suffix := asciiBytes (handle.drop 1) ++ untilZero bytes
      return (if suffix.isEmpty then ⟨[], asciiBytes handle⟩ else ⟨['!'], suffix⟩, rest)

/-- The texts that handles stand for. -/
abbrev TagHandles := List (List Char × List UInt8)

/-- The handles that need no directive. -/
def standardHandles : TagHandles :=
  [(['!'], asciiBytes ['!']), (['!', '!'], asciiBytes "tag:yaml.org,2002:".toList)]

/-- The bytes of a tag; its handle must be known, unless there is none. -/
def WrittenTag.bytes? (handles : TagHandles) (tag : WrittenTag) : Option (List UInt8) :=
  if tag.handle.isEmpty then some tag.suffix
  else (handles.find? fun h => h.1 == tag.handle).map fun h => h.2 ++ tag.suffix

/-- What a tag asks for. -/
inductive TagMeaning where
  /-- A value of the document's own kind of this name. -/
  | named (name : String)
  /-- A local tag whose name is no text; its scalar is resolved as if there were no tag. -/
  | unnamed
  | bool
  | int
  | float
  | null
  /-- Nothing, but a scalar with it is a string. -/
  | other
deriving DecidableEq, Repr

/-- What a tag asks for. The name of a local tag stands behind its mark, and a mark alone is a name
itself. -/
def meaningOf (tag : List UInt8) : TagMeaning :=
  let standard (word : String) : Bool := tag == asciiBytes ("tag:yaml.org,2002:" ++ word).toList
  match tag with
  | 0x21 :: rest =>
    match String.fromUTF8? ⟨(if rest.isEmpty then [0x21] else rest).toArray⟩ with
    | some name => .named name
    | none => .unnamed
  | _ =>
    if standard "bool" then .bool
    else if standard "int" then .int
    else if standard "float" then .float
    else if standard "null" then .null
    else .other

end HighlightGrammar.Yaml

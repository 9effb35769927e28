import HighlightGrammar.Toml.Draft
import HighlightGrammar.Toml.Quoted
import HighlightGrammar.Toml.Scalar

/-! # Reading TOML

A document is a list of lines: headers that open tables, and keys with values that go into the table
opened last. Arrays may go over several lines; tables in braces may not. -/
namespace HighlightGrammar.Toml

def skipBlanks (text : List Char) : List Char := text.dropWhile isBlank

/-- Skips a comment; no control character may stand in it. -/
def skipComment : List Char → Option (List Char)
  | '#' :: rest =>
    let following := rest.dropWhile fun c => !isControl c
    if following.isEmpty || (breakWidth? following).isSome then some following else none
  | text => some text

/-- Skips blanks, comments and line breaks; each round takes a character. -/
def skipGap : Nat → List Char → Option (List Char)
  | 0, text => some text
  | fuel + 1, text => do
    let rest ← skipComment (skipBlanks text)
    match breakWidth? rest with
    | some width => skipGap fuel (rest.drop width)
    | none => some rest

/-- Skips what may follow the last character of a line that counts. -/
def skipToLine (text : List Char) : Option (List Char) := do
  let rest ← skipComment (skipBlanks text)
  match rest, breakWidth? rest with
  | [], _ => some []
  | _, some width => some (rest.drop width)
  | _, none => none

/-- Characters of keys without quotes. -/
def isBareChar (c : Char) : Bool := c.isAlphanum || c == '_' || c == '-'

/-- Reads a key without dots. -/
def readSimpleKey : List Char → Option (String × List Char)
  | [] => none
  | c :: rest =>
    if c = '"' ∨ c = '\'' then
      (readString true c rest).map fun (key, rest) => (String.ofList key, rest)
    else
      let (key, rest) := (c :: rest).span isBareChar
      if key.isEmpty then none else some (String.ofList key, rest)

/-- Reads a key with dots and the blanks around it; each round takes a character. -/
def readKey : Nat → List Char → Option (List String × List Char)
  | 0, _ => none
  | fuel + 1, text => do
    let (key, rest) ← readSimpleKey (skipBlanks text)
    match skipBlanks rest with
    | '.' :: rest =>
      let (keys, rest) ← readKey fuel rest
      return (key :: keys, rest)
    | rest => return ([key], rest)

/-- How deep brackets and braces may lie in each other, and how many parts a key may have. -/
def deepest : Nat := 79

/-- Reads a key with dots. -/
def key? (text : List Char) : Option (List String × List Char) := do
  let (path, rest) ← readKey (text.length + 1) text
  if path.length ≤ deepest then return (path, rest) else none

/-- Characters of values without quotes or brackets. -/
def isScalarChar (c : Char) : Bool := c.isAlphanum || "_+-.:".toList.contains c

/-- Reads a value without quotes or brackets. A date may be followed by a space and a time. -/
def readScalar (text : List Char) : Option (Value × List Char) :=
  let (word, rest) := text.span isScalarChar
  let single := (scalar? word).map fun value => (value, rest)
  match rest with
  | ' ' :: following =>
    let (time, after) := following.span isScalarChar
    if (date? word).isSome ∧ !time.isEmpty then
      match scalar? (word ++ ' ' :: time) with
      | some value => some (value, after)
      | none => single
    else single
  | _ => single

mutual

/-- Reads a value; brackets may lie in each other to a depth of `depth`. -/
def readValue : (depth : Nat) → (fuel : Nat) → List Char → Option (Value × List Char)
  | _, 0, _ => none
  | depth, fuel + 1, text =>
    match text with
    | [] => none
    | c :: rest =>
      if c = '"' ∨ c = '\'' then
        (readString false c rest).map fun (string, rest) => (.string (String.ofList string), rest)
      else if c = '[' then
        if depth = 0 then none
        else (readItems (depth - 1) fuel rest).map fun (items, rest) => (.array items, rest)
      else if c = '\x7b' then
        if depth = 0 then none
        else match skipBlanks rest with
          | '\x7d' :: rest => some (.table [], rest)
          | rest => (readEntries (depth - 1) fuel [] rest).map fun (items, rest) =>
            ((Item.table .header items).toValue, rest)
      else readScalar (c :: rest)

/-- Reads the items of an array and its closing bracket. -/
def readItems : (depth : Nat) → (fuel : Nat) → List Char → Option (List Value × List Char)
  | _, 0, _ => none
  | depth, fuel + 1, text => do
    let rest ← skipGap text.length text
    match rest with
    | ']' :: rest => return ([], rest)
    | rest =>
      let (item, rest) ← readValue depth fuel rest
      let rest ← skipGap rest.length rest
      match rest with
      | ',' :: rest =>
        let (items, rest) ← readItems depth fuel rest
        return (item :: items, rest)
      | ']' :: rest => return ([item], rest)
      | _ => none

/-- Reads the entries of a table in braces and its closing brace. -/
def readEntries : (depth : Nat) → (fuel : Nat) → Items → List Char → Option (Items × List Char)
  | _, 0, _, _ => none
  | depth, fuel + 1, items, text => do
    let (path, rest) ← key? text
    match rest with
    | '=' :: rest =>
      let (value, rest) ← readValue depth fuel (skipBlanks rest)
      let items ← items.add value path
      match skipBlanks rest with
      | ',' :: rest => readEntries depth fuel items rest
      | '\x7d' :: rest => return (items, rest)
      | _ => none
    | _ => none

end

/-- A document of which some lines have been read. -/
structure DocumentDraft where
  items : Items
  /-- The header of the table that is open. -/
  header : List String

/-- Reads a header behind its first bracket; a second one opens one of several tables. -/
def readHeader (draft : DocumentDraft) (text : List Char) : Option (DocumentDraft × List Char) := do
  let isElement := text.head? == some '['
  let (path, rest) ← key? (if isElement then text.drop 1 else text)
  let last ← path.getLast?
  let opening := if isElement then Items.openElement last else Items.openTable last
  let items ← Items.within opening path.dropLast draft.items
  match isElement, rest with
  | true, ']' :: ']' :: rest => return (⟨items, path⟩, rest)
  | false, ']' :: rest => return (⟨items, path⟩, rest)
  | _, _ => none

/-- Reads a key with its value. -/
def readEntry (draft : DocumentDraft) (text : List Char) : Option (DocumentDraft × List Char) := do
  let (path, rest) ← key? text
  match rest with
  | '=' :: rest =>
    let (value, rest) ← readValue deepest (rest.length + 1) (skipBlanks rest)
    let items ← Items.within (Items.add value path) draft.header draft.items
    return ({ draft with items }, rest)
  | _ => none

/-- Reads lines up to the end of the text; each round takes a character. -/
def readLinesOf : Nat → DocumentDraft → List Char → Option DocumentDraft
  | 0, _, _ => none
  | fuel + 1, draft, text => do
    let rest ← skipGap text.length text
    match rest with
    | [] => return draft
    | '[' :: rest =>
      let (draft, rest) ← readHeader draft rest
      readLinesOf fuel draft (← skipToLine rest)
    | rest =>
      let (draft, rest) ← readEntry draft rest
      readLinesOf fuel draft (← skipToLine rest)

/-- The entries of the document that a text holds. A mark of the byte order may stand in front. -/
def read? (text : String) : Option (List (String × Value)) :=
  let chars := match text.toList with
    | c :: rest => if c.toNat = 0xFEFF then rest else c :: rest
    | [] => []
  (readLinesOf (chars.length + 1) ⟨[], []⟩ chars).map fun draft => Item.toValues draft.items

end HighlightGrammar.Toml

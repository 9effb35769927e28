import HighlightGrammar.Yaml.Character

/-! # Block text

Block text stands on lines of its own below a head. It is set in by the column of its first line, or
by as much as the head says. Literal text keeps its line breaks; folded text joins lines that do not
begin with a blank. The head also says what becomes of the breaks at the end. -/
namespace HighlightGrammar.Yaml

/-- What becomes of the line breaks at the end of block text. -/
inductive Chomping where
  | strip
  | clip
  | keep
deriving DecidableEq, Repr

/-- The head of block text. -/
structure BlockHead where
  chomping : Chomping
  /-- How far the text is set in beyond the collection around it, if the head says so. -/
  depth : Option Nat
deriving DecidableEq, Repr

def chompingOf? : Char → Option Chomping
  | '+' => some .keep
  | '-' => some .strip
  | _ => none

/-- Reads the depth; zero is none. -/
def readDepth (chomping : Chomping) : List Char → Option (BlockHead × List Char)
  | [] => some (⟨chomping, none⟩, [])
  | c :: rest =>
    if c.isDigit then
      if c = '0' then none else some (⟨chomping, some (c.toNat - 48)⟩, rest)
    else some (⟨chomping, none⟩, c :: rest)

/-- Reads the two marks of a head, which stand in either order. -/
def readMarks : List Char → Option (BlockHead × List Char)
  | [] => some (⟨.clip, none⟩, [])
  | c :: rest =>
    match chompingOf? c with
    | some chomping => readDepth chomping rest
    | none => do
      let (head, rest) ← readDepth .clip (c :: rest)
      match head.depth, rest with
      | some depth, d :: following =>
        match chompingOf? d with
        | some chomping => return (⟨chomping, some depth⟩, following)
        | none => return (head, rest)
      | _, _ => return (head, rest)

/-- Reads a head up to the end of its line: blanks and a comment may follow the marks. -/
def readHead (text : List Char) : Option (BlockHead × List Char) := do
  let (head, rest) ← readMarks text
  let rest := rest.dropWhile isBlank
  let rest := if rest.head? = some '#' then rest.dropWhile fun c => !isBreak c else rest
  match rest with
  | [] => return (head, [])
  | c :: rest => if isBreak c then return (head, rest) else none

/-- The column that the first line of a text sets: the furthest that spaces reach up to its first
character. A tabulator may not follow the spaces. -/
def firstColumn? (column reached : Nat) : List Char → Option Nat
  | [] => some (max column reached)
  | c :: rest =>
    if c = ' ' then firstColumn? (column + 1) reached rest
    else if c = '\t' then none
    else if isBreak c then firstColumn? 0 (max column reached) rest
    else some (max column reached)

/-- Where one stands in block text. -/
inductive BlockPlace where
  /-- In front of a line, as many spaces behind its start. -/
  | margin (column : Nat)
  | line
deriving DecidableEq, Repr

/-- The line breaks that have been read and not yet written. -/
structure Pending where
  /-- The break behind the last line. -/
  ending : List Char
  /-- The breaks behind blank lines, the last one first. -/
  blank : List Char
  /-- Whether the last line began with a blank. -/
  afterBlank : Bool
deriving DecidableEq, Repr

/-- What pending breaks leave in front of a line. -/
def Pending.text (folded beginsBlank : Bool) (pending : Pending) : List Char :=
  let ending :=
    if folded && pending.ending == ['\n'] && !pending.afterBlank && !beginsBlank then
      if pending.blank.isEmpty then [' '] else []
    else pending.ending
  ending ++ pending.blank.reverse

/-- What pending breaks leave at the end of the text. -/
def Pending.final (chomping : Chomping) (pending : Pending) : List Char :=
  match chomping with
  | .strip => []
  | .clip => pending.ending
  | .keep => pending.ending ++ pending.blank.reverse

/-- Reads lines that are set in by `column`: their text and what follows the last of them. -/
def readLines (folded : Bool) (chomping : Chomping) (column : Nat) :
    BlockPlace → Pending → List Char → Option (List Char × List Char)
  | _, pending, [] => some (pending.final chomping, [])
  | .margin reached, pending, c :: rest =>
    if reached < column ∧ c = ' ' then
      readLines folded chomping column (.margin (reached + 1)) pending rest
    else if reached < column ∧ c = '\t' then none
    else if isBreak c then
      readLines folded chomping column (.margin 0)
        { pending with blank := c :: pending.blank } rest
    else if reached < column then some (pending.final chomping, c :: rest)
    else
      (readLines folded chomping column .line ⟨[], [], isBlank c⟩ rest).map fun (text, rest) =>
        (pending.text folded (isBlank c) ++ c :: text, rest)
  | .line, pending, c :: rest =>
    if isBreak c then
      readLines folded chomping column (.margin 0) { pending with ending := [c] } rest
    else
      (readLines folded chomping column .line pending rest).map fun (text, rest) =>
        (c :: text, rest)

/-- The column of block text inside a collection at column `outer`: as the head says, or else as the
first line sets it, but not in front of the collection's own text. -/
def blockColumn? (outer : Option Nat) (head : BlockHead) (text : List Char) : Option Nat :=
  match head.depth with
  | some depth => some (outer.getD 0 + depth)
  | none =>
    let least := max 1 ((outer.map (· + 1)).getD 0)
    (firstColumn? 0 0 text).map fun found => max found least

/-- Reads block text behind its mark, inside a collection at column `outer`. -/
def readBlock (folded : Bool) (outer : Option Nat) (text : List Char) :
    Option (List Char × List Char) := do
  let (head, rest) ← readHead text
  let column ← blockColumn? outer head rest
  readLines folded head.chomping column (.margin 0) ⟨[], [], false⟩ rest

end HighlightGrammar.Yaml

import HighlightGrammar.Text.Hexadecimal

/-! # TOML strings

A string stands between double or single quotes, three of them where it goes over several lines.
Only between double quotes are there escapes; there a backslash at the end of a line also joins it
to the next text. A line break directly behind three quotes is no part of the string. -/
namespace HighlightGrammar.Toml

open Text

/-- A space or a tabulator. -/
def isBlank (c : Char) : Bool := c == ' ' || c == '\t'

/-- Characters that may not stand in a document as they are, line breaks among them. -/
def isControl (c : Char) : Bool := (c.toNat < 0x20 && c != '\t') || c.toNat == 0x7F

/-- The number of characters of the line break that a text starts with. -/
def breakWidth? : List Char → Option Nat
  | '\n' :: _ => some 1
  | '\r' :: '\n' :: _ => some 2
  | _ => none

/-- The character that an escape stands for, with the number of characters behind the backslash. -/
def unescape? : List Char → Option (Char × Nat)
  | [] => none
  | mark :: rest =>
    let one (code : Nat) : Option (Char × Nat) := some (Char.ofNat code, 1)
    match mark with
    | 'b' => one 0x08
    | 't' => one 0x09
    | 'n' => one 0x0A
    | 'f' => one 0x0C
    | 'r' => one 0x0D
    | '"' => one 0x22
    | '\\' => one 0x5C
    | 'u' => (hexChar? 4 rest).map fun c => (c, 5)
    | 'U' => (hexChar? 8 rest).map fun c => (c, 9)
    | _ => none

/-- Puts text in front of a string that has been read. -/
def consText (text : List Char) : List Char × List Char → List Char × List Char
  | (read, rest) => (text ++ read, rest)

/-- Reads a string of one line up to its closing quote; the first `skip` characters have been dealt
with. -/
def readLine (quote : Char) : Nat → List Char → Option (List Char × List Char)
  | _, [] => none
  | skip + 1, _ :: rest => readLine quote skip rest
  | 0, c :: rest =>
    if c = quote then some ([], rest)
    else if isControl c then none
    else if c = '\\' ∧ quote = '"' then do
      let (escaped, width) ← unescape? rest
      (readLine quote width rest).map (consText [escaped])
    else (readLine quote 0 rest).map (consText [c])

/-- The number of line breaks and blanks that a text starts with, in characters. -/
def gapWidth : Nat → List Char → Nat
  | 0, _ => 0
  | fuel + 1, text =>
    match text with
    | c :: rest =>
      if isBlank c then gapWidth fuel rest + 1
      else match breakWidth? text with
        | some width => gapWidth fuel (text.drop width) + width
        | none => 0
    | [] => 0

/-- The width of what a backslash at the end of a line takes away: blanks, the line break, and all
blanks and line breaks behind it. -/
def joinWidth? (text : List Char) : Option Nat :=
  let blanks := (text.takeWhile isBlank).length
  let rest := text.drop blanks
  (breakWidth? rest).map fun width => blanks + width + gapWidth rest.length (rest.drop width)

/-- Reads a string of several lines up to its closing quotes; the first `skip` characters have been
dealt with. One or two quotes more than the closing three belong to the string. -/
def readLines (quote : Char) : Nat → List Char → Option (List Char × List Char)
  | _, [] => none
  | skip + 1, _ :: rest => readLines quote skip rest
  | 0, c :: rest =>
    if c = quote then
      let quotes := ((c :: rest).takeWhile (· == quote)).length
      if quotes ≥ 3 then
        let taken := min quotes 5
        some (List.replicate (taken - 3) quote, (c :: rest).drop taken)
      else (readLines quote (quotes - 1) rest).map (consText (List.replicate quotes quote))
    else if c = '\\' ∧ quote = '"' then
      match joinWidth? rest with
      | some width => readLines quote width rest
      | none => do
        let (escaped, width) ← unescape? rest
        (readLines quote width rest).map (consText [escaped])
    else match breakWidth? (c :: rest) with
      | some width => (readLines quote (width - 1) rest).map (consText ['\n'])
      | none =>
        if isControl c then none else (readLines quote 0 rest).map (consText [c])

/-- Reads a string behind its first quote. Keys have only one line. -/
def readString (isKey : Bool) (quote : Char) (text : List Char) : Option (List Char × List Char) :=
  if !isKey && text.take 2 == [quote, quote] then
    let rest := text.drop 2
    readLines quote 0 (rest.drop ((breakWidth? rest).getD 0))
  else readLine quote 0 text

end HighlightGrammar.Toml

import HighlightGrammar.Text.Hexadecimal
import HighlightGrammar.Yaml.Text.Gap

/-! # Quoted text

Text between single quotes holds a quote written twice and nothing else that is special. Text
between double quotes holds escapes; an escaped line break joins two lines. In both, line breaks are
folded. -/
namespace HighlightGrammar.Yaml

open Text

/-- The character that an escape stands for, with the number of characters behind the backslash. -/
def unescape? : List Char → Option (Char × Nat)
  | [] => none
  | mark :: rest =>
    let one (code : Nat) : Option (Char × Nat) := some (Char.ofNat code, 1)
    match mark with
    | '0' => one 0x00
    | 'a' => one 0x07
    | 'b' => one 0x08
    | 't' => one 0x09
    | '\t' => one 0x09
    | 'n' => one 0x0A
    | 'v' => one 0x0B
    | 'f' => one 0x0C
    | 'r' => one 0x0D
    | 'e' => one 0x1B
    | ' ' => one 0x20
    | '"' => one 0x22
    | '/' => one 0x2F
    | '\\' => one 0x5C
    | 'N' => one 0x85
    | '_' => one 0xA0
    | 'L' => one 0x2028
    | 'P' => one 0x2029
    | 'x' => (hexChar? 2 rest).map fun c => (c, 3)
    | 'u' => (hexChar? 4 rest).map fun c => (c, 5)
    | 'U' => (hexChar? 8 rest).map fun c => (c, 9)
    | _ => none

/-- Puts text in front of quoted text that has been read. -/
def consQuoted (text : List Char) : List Char × List Char → List Char × List Char
  | (read, rest) => (text ++ read, rest)

/-- Reads text between single quotes behind a gap; the first `skip` characters have been dealt
with. -/
def readSingle : Nat → Gap → List Char → Option (List Char × List Char)
  | _, _, [] => none
  | skip + 1, gap, _ :: rest => readSingle skip gap rest
  | 0, gap, c :: rest =>
    if isBlank c then readSingle 0 (gap.addBlank c) rest
    else if isBreak c then readSingle 0 (gap.addBreak c) rest
    else if gap.atLineStart && atDocumentMark (c :: rest) then none
    else if c = '\'' then
      if rest.head? = some '\'' then
        (readSingle 1 .none rest).map (consQuoted (gap.text ++ ['\'']))
      else some (gap.text, rest)
    else (readSingle 0 .none rest).map (consQuoted (gap.text ++ [c]))

/-- Reads text between double quotes behind a gap; the first `skip` characters have been dealt
with. -/
def readDouble : Nat → Gap → List Char → Option (List Char × List Char)
  | _, _, [] => none
  | skip + 1, gap, _ :: rest => readDouble skip gap rest
  | 0, gap, c :: rest =>
    if isBlank c then readDouble 0 (gap.addBlank c) rest
    else if isBreak c then readDouble 0 (gap.addBreak c) rest
    else if gap.atLineStart && atDocumentMark (c :: rest) then none
    else if c = '"' then some (gap.text, rest)
    else if c = '\\' then
      if rest.head?.any isBreak then
        (readDouble 1 (.breaks none [] 0) rest).map (consQuoted gap.text)
      else match unescape? rest with
        | none => none
        | some (escaped, width) =>
          (readDouble width .none rest).map (consQuoted (gap.text ++ [escaped]))
    else (readDouble 0 .none rest).map (consQuoted (gap.text ++ [c]))

/-- Reads text that stands behind an opening quote: the text and what follows the closing one. -/
def readQuoted (quote : Char) (text : List Char) : Option (List Char × List Char) :=
  if quote = '"' then readDouble 0 .none text else readSingle 0 .none text

end HighlightGrammar.Yaml

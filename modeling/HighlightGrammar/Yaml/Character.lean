/-! # The characters of YAML

Which characters a document may hold, which of them break a line, and which may be written as they
are. -/
namespace HighlightGrammar.Yaml

/-- Characters that a document may hold. -/
def isAllowed (c : Char) : Bool :=
  let code := c.toNat
  code == 0x09 || code == 0x0A || code == 0x0D || (0x20 ≤ code && code ≤ 0x7E) || code == 0x85 ||
    (0xA0 ≤ code && code ≤ 0xD7FF) || (0xE000 ≤ code && code ≤ 0xFFFD) || 0x10000 ≤ code

/-- Characters that are written as they are. -/
def isPrintable (c : Char) : Bool :=
  let code := c.toNat
  code == 0x0A || (0x20 ≤ code && code ≤ 0x7E) || (0xA0 ≤ code && code ≤ 0xD7FF) ||
    (0xE000 ≤ code && code ≤ 0xFFFD && code != 0xFEFF) || 0x10000 ≤ code

/-- Characters that break a line. -/
def isBreak (c : Char) : Bool :=
  c == '\n' || c == '\r' || c.toNat == 0x85 || c.toNat == 0x2028 || c.toNat == 0x2029

/-- A space or a tabulator. -/
def isBlank (c : Char) : Bool := c == ' ' || c == '\t'

/-- Letters, digits, `_` and `-`, of which names of anchors and tag handles are made. -/
def isWordChar (c : Char) : Bool := c.isAlphanum || c == '_' || c == '-'

/-- Whether a text is empty or goes on with a blank or a line break. -/
def atBlankOrEnd : List Char → Bool
  | [] => true
  | c :: _ => isBlank c || isBreak c

/-- Whether a text is empty or goes on with a line break. -/
def atBreakOrEnd : List Char → Bool
  | [] => true
  | c :: _ => isBreak c

/-- Whether a text starts with the mark of a document's start or end, at the beginning of a line. -/
def atDocumentMark : List Char → Bool
  | '-' :: '-' :: '-' :: rest => atBlankOrEnd rest
  | '.' :: '.' :: '.' :: rest => atBlankOrEnd rest
  | _ => false

/-- The text with one line feed for each carriage return, for each pair of carriage return and line
feed, and for each next-line character. The two separators of Unicode stay. -/
def unifyBreaks : List Char → List Char
  | [] => []
  | '\r' :: '\n' :: rest => '\n' :: unifyBreaks rest
  | c :: rest => (if c = '\r' ∨ c.toNat = 0x85 then '\n' else c) :: unifyBreaks rest

end HighlightGrammar.Yaml

/-! # Lines

A text is cut into lines at its terminators: a carriage return directly followed by a line feed is
one terminator, and otherwise each of the two characters is. There is always one line more than
there are terminators, so a text that ends in a terminator ends in an empty line. -/
namespace HighlightGrammar.Text

/-- What ends a line. -/
inductive Terminator where
  | crlf
  | cr
  | lf
deriving DecidableEq, Repr

def Terminator.chars : Terminator → List Char
  | crlf => ['\r', '\n']
  | cr => ['\r']
  | lf => ['\n']

/-- Puts a character in front of the first line. -/
def consFirst (c : Char) : List (List Char) → List (List Char)
  | [] => [[c]]
  | line :: lines => (c :: line) :: lines

/-- The lines of a text. -/
def lines : List Char → List (List Char)
  | [] => [[]]
  | '\r' :: '\n' :: rest => [] :: lines rest
  | '\r' :: rest => [] :: lines rest
  | '\n' :: rest => [] :: lines rest
  | c :: rest => consFirst c (lines rest)

/-- The terminators of a text, in order. -/
def terminators : List Char → List Terminator
  | [] => []
  | '\r' :: '\n' :: rest => .crlf :: terminators rest
  | '\r' :: rest => .cr :: terminators rest
  | '\n' :: rest => .lf :: terminators rest
  | _ :: rest => terminators rest

/-- Lines with terminators set between them. -/
def weave : List (List Char) → List Terminator → List Char
  | [], _ => []
  | [line], _ => line
  | line :: rest, [] => line ++ weave rest []
  | line :: rest, t :: ts => line ++ t.chars ++ weave rest ts

/-- The lines of a text, as texts. -/
def splitLines (text : String) : List String := (lines text.toList).map String.ofList

end HighlightGrammar.Text

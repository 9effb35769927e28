import HighlightGrammar.Yaml.Character

/-! # Gaps

What stands between the words of a scalar that may go over several lines: blanks, or line breaks
with the blanks around them. Blanks are kept. Of the breaks the first one is folded: alone it is a
space, and before other breaks it is nothing. -/
namespace HighlightGrammar.Yaml

/-- What has been read since the last word. -/
inductive Gap where
  | none
  /-- Blanks, the last one first. -/
  | blanks (read : List Char)
  /-- Line breaks: the first one, absent if it was escaped, the others, the last one first, and the
  number of blanks on the present line. -/
  | breaks (first : Option Char) (others : List Char) (column : Nat)
deriving Repr, DecidableEq

namespace Gap

/-- What a gap leaves in the text of the scalar. -/
def text : Gap → List Char
  | none => []
  | blanks read => read.reverse
  | breaks first others _ =>
    match first with
    | some '\n' => if others.isEmpty then [' '] else others.reverse
    | some c => c :: others.reverse
    | .none => others.reverse

/-- The gap with one more blank. Blanks at the start of a line count for nothing. -/
def addBlank (c : Char) : Gap → Gap
  | none => blanks [c]
  | blanks read => blanks (c :: read)
  | breaks first others column => breaks first others (column + 1)

/-- The gap with one more line break. Blanks in front of the first one are lost. -/
def addBreak (c : Char) : Gap → Gap
  | none => breaks (some c) [] 0
  | blanks _ => breaks (some c) [] 0
  | breaks first others _ => breaks first (c :: others) 0

/-- Whether a gap ends at the start of a line. -/
def atLineStart : Gap → Bool
  | breaks _ _ 0 => true
  | _ => false

/-- Whether a gap goes over the end of a line. -/
def hasBreaks : Gap → Bool
  | breaks _ _ _ => true
  | _ => false

/-- Whether a gap ends on a new line in front of a column. -/
def endsBefore (column : Int) : Gap → Bool
  | breaks _ _ reached => (reached : Int) < column
  | _ => false

end Gap

end HighlightGrammar.Yaml

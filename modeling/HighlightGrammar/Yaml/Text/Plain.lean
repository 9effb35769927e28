import HighlightGrammar.Yaml.Text.Gap

/-! # Plain text

A scalar without quotes goes on until something that means more than text: a colon before a blank, a
number sign behind one, a line that is not set in far enough, the mark of a document, or inside
brackets also a comma or a bracket. -/
namespace HighlightGrammar.Yaml

/-- A plain scalar that has been read. -/
structure PlainText where
  text : List Char
  /-- What follows it. -/
  rest : List Char
  /-- Whether it is followed by the start of a line. -/
  atLine : Bool
deriving Repr, DecidableEq

/-- Characters that end plain text inside brackets. -/
def isFlowIndicator (c : Char) : Bool := ",[]\x7b\x7d".toList.contains c

/-- Whether plain text ends in front of a text. -/
def endsPlain (inFlow : Bool) : List Char → Bool
  | [] => true
  | c :: rest => (c == ':' && atBlankOrEnd rest) || (inFlow && isFlowIndicator c)

/-- Inside brackets a colon may not touch a character that would end the text. -/
def misplacedColon (inFlow : Bool) : List Char → Bool
  | ':' :: c :: _ => inFlow && (isFlowIndicator c || c == '?')
  | _ => false

/-- Whether a gap with what follows it ends plain text of which further lines reach `column`. -/
def gapEndsPlain (inFlow : Bool) (column : Int) (gap : Gap) (following : List Char) : Bool :=
  (!inFlow && gap.endsBefore column) || (gap.atLineStart && atDocumentMark following) ||
    (gap != .none && following.head? == some '#')

/-- Reads plain text behind a gap. Further lines have to reach `column`; a tabulator may not stand
in front of it. -/
def readPlain (inFlow : Bool) (column : Int) : Gap → List Char → Option PlainText
  | gap, [] => some ⟨[], [], gap.hasBreaks⟩
  | gap, c :: rest =>
    if isBlank c then
      if c == '\t' && gap.endsBefore column then none
      else readPlain inFlow column (gap.addBlank c) rest
    else if isBreak c then readPlain inFlow column (gap.addBreak c) rest
    else if gapEndsPlain inFlow column gap (c :: rest) then some ⟨[], c :: rest, gap.hasBreaks⟩
    else if misplacedColon inFlow (c :: rest) then none
    else if endsPlain inFlow (c :: rest) then some ⟨[], c :: rest, gap.hasBreaks⟩
    else (readPlain inFlow column .none rest).map fun read =>
      { read with text := gap.text ++ c :: read.text }

end HighlightGrammar.Yaml

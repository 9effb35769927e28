import HighlightGrammar.Baseline.Divergence
import HighlightGrammar.Baseline.Error
import HighlightGrammar.Text.Blank
import HighlightGrammar.Text.Folding
import HighlightGrammar.Text.Lines

/-! # Reports

The report on a document shows its lines, the trace by the grammar of its kind, and, where the other
grammar diverges, the trace by that one. A document whose first line says so is not checked against
the other grammar. -/
namespace HighlightGrammar

/-- The word that keeps a document from being checked against the other grammar. -/
def optOutWord : List Char := "@onlyOwnGrammar".toList

/-- Whether a text starts with a word, letter case aside. -/
def startsWithFold : List Char → List Char → Bool
  | [], _ => true
  | w :: word, c :: text => Text.sameFold w c && startsWithFold word text
  | _ :: _, [] => false

/-- Whether a line holds two slashes, white space if there is any, and the word that opts out. -/
def optsOut : List Char → Bool
  | [] => false
  | '/' :: '/' :: rest =>
    startsWithFold optOutWord (rest.dropWhile Text.isBlank) || optsOut ('/' :: rest)
  | _ :: rest => optsOut rest

/-- Which grammars trace a document. -/
structure GrammarSelection where
  main : Kind
  other : Option Kind
deriving DecidableEq, Repr

/-- The grammar of the document's own kind, and the other one unless the first line opts out. -/
def GrammarSelection.of (path : Path) (lines : List String) : GrammarSelection :=
  let main := Kind.forFile path
  ⟨main, if lines.head?.any fun line => optsOut line.toList then none else some main.complement⟩

/-- A trace by one grammar in a report. -/
structure ReportSection where
  fileName : String
  trace : List String
deriving DecidableEq, Repr

/-- The line between the parts of a report. -/
def rulerLine : String := String.ofList (List.replicate 35 '-')

def joinLines (lines : List String) : String := "\n".intercalate lines

namespace ReportSection

def text (part : ReportSection) : String :=
  "Grammar: " ++ part.fileName ++ "\n" ++ rulerLine ++ "\n" ++ joinLines part.trace

end ReportSection

/-- The report on a document. -/
structure Report where
  lines : List String
  main : ReportSection
  secondary : Option ReportSection
  verdict : Verdict
deriving DecidableEq, Repr

namespace Report

/-- How a report is stored. -/
def text (report : Report) : String :=
  "original file\n" ++ rulerLine ++ "\n" ++ joinLines report.lines ++ "\n" ++ rulerLine ++ "\n\n" ++
    report.main.text ++
    match report.secondary with
    | some part => "\n\n\n" ++ part.text
    | none => ""

end Report

namespace GrammarRegistry

variable {σ : Type}

/-- The grammar of a kind, or that it is not available. -/
def get (registry : GrammarRegistry σ) (kind : Kind) : Except BaselineError (LoadedGrammar σ) :=
  (registry.slot kind).mapError (.unavailable kind)

/-- The report on a document. Its own grammar is asked before the other one. -/
def report (registry : GrammarRegistry σ) (path : Path) (text : String) :
    Except BaselineError Report := do
  let lines := Text.splitLines text
  let selection := GrammarSelection.of path lines
  let main ← registry.get selection.main
  let trace ← (main.trace lines).mapError .scan
  let mainSection : ReportSection := ⟨main.fileName, trace.render⟩
  match selection.other with
  | none => return ⟨lines, mainSection, none, .agreement⟩
  | some kind =>
    let other ← registry.get kind
    let verdict := trace.compare (← (other.trace lines).mapError .scan)
    return ⟨lines, mainSection, verdict.secondary.map (⟨other.fileName, ·⟩), verdict⟩

end GrammarRegistry

end HighlightGrammar

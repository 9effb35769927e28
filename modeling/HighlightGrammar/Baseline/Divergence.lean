import HighlightGrammar.Baseline.Trace

/-! # Divergence

A text is also traced by the grammar of the other kind. A line diverges when the two grammars cut it
differently, or when the other grammar names a scope that is not its own. Where no line diverges,
the other trace is not worth showing. -/
namespace HighlightGrammar

/-- A line in which two traces diverge. -/
structure LineDivergence where
  line : Nat
  /-- Whether the tokens differ. -/
  structural : Bool
  /-- The scopes of the second trace that its grammar does not own. -/
  foreignScopes : List String
deriving DecidableEq, Repr

/-- What the comparison of two traces says. -/
structure Verdict where
  lines : List LineDivergence
  /-- The second trace as it is shown, if a line diverges. -/
  secondary : Option (List String)
deriving DecidableEq, Repr

namespace Verdict

/-- The verdict on traces that agree. -/
def agreement : Verdict := ⟨[], none⟩

def diverged (verdict : Verdict) : Bool := !verdict.lines.isEmpty

end Verdict

/-- The scopes of a line that do not belong to a kind. -/
def TracedLine.foreignScopes (kind : Kind) (line : TracedLine) : List String :=
  (line.tokens.flatMap Token.scopes).filter fun scope => !kind.ownsScope scope

/-- The diverging lines of two traces, the first of which is line `start`. Lines that only one trace
has are not looked at. -/
def divergences (kind : Kind) : Nat → List TracedLine → List TracedLine → List LineDivergence
  | start, ours :: primary, theirs :: secondary =>
    let structural := ours.tokens != theirs.tokens
    let foreign := theirs.foreignScopes kind
    let others := divergences kind (start + 1) primary secondary
    if structural || !foreign.isEmpty then ⟨start, structural, foreign⟩ :: others else others
  | _, _, _ => []

/-- Compares a trace with one of the other kind. -/
def Trace.compare (primary secondary : Trace) : Verdict :=
  let lines := divergences secondary.kind 0 primary.lines secondary.lines
  if lines.isEmpty then .agreement else ⟨lines, some secondary.render⟩

end HighlightGrammar

import HighlightGrammar.Scan.Tokenizer

/-! # Traces

A trace holds the lines of a text with the tokens that one grammar finds in them. It is shown line
by line: the line behind a mark, and below it two lines for every token, one that marks its characters
and one that names its scopes. A token with a foreign scope is pointed out. -/
namespace HighlightGrammar

/-- A line with its tokens. -/
structure TracedLine where
  text : String
  tokens : List Token
deriving DecidableEq, Repr

/-- A line that has been asked for, with its tokens or the reason why there are none. -/
structure FedLine where
  text : String
  outcome : Except ScanError (List Token)
deriving Repr

/-- The tokens of all lines of a text, found by a grammar of the kind. -/
structure Trace where
  kind : Kind
  lines : List TracedLine
deriving DecidableEq, Repr

/-- The word behind the scopes of a token that a grammar does not own. -/
def foreignMark : String := "INCORRECT_SCOPE_EXTENSION"

namespace Token

/-- The blanks in front of what is written below a token; the line itself stands behind a mark. -/
def margin (token : Token) : String := String.ofList (List.replicate (token.start + 1) ' ')

/-- The line that marks the characters of a token. -/
def marker (token : Token) : String :=
  token.margin ++ String.ofList (List.replicate token.length '^')

/-- The line that names the scopes of a token. -/
def scopeLine (kind : Kind) (token : Token) : String :=
  token.margin ++ " ".intercalate token.scopes ++
    if kind.ownsToken token then "" else " " ++ foreignMark

end Token

/-- How a line is shown. -/
def TracedLine.render (kind : Kind) (line : TracedLine) : List String :=
  (">" ++ line.text) :: line.tokens.flatMap fun token => [token.marker, token.scopeLine kind]

/-- How a trace is shown, line by line. -/
def Trace.render (trace : Trace) : List String := trace.lines.flatMap (·.render trace.kind)

/-- Where one stands in a text: the state behind the lines that have been read, and their number. -/
structure TraceState (σ : Type) where
  state : σ
  line : Nat

namespace LoadedGrammar

variable {σ : Type}

def startTrace (grammar : LoadedGrammar σ) : TraceState σ := ⟨grammar.tokenizer.start, 0⟩

/-- The tokens of the next line, all of which have to be valid. -/
def traceLine (grammar : LoadedGrammar σ) (place : TraceState σ) (line : String) :
    Except ScanError (List Token × TraceState σ) := do
  let (tokens, state) ← (grammar.tokenizer.tokens place.state line).mapError (.atLine place.line)
  tokens.forM fun token => (token.validate line.length).mapError (.atLine place.line)
  return (tokens, ⟨state, place.line + 1⟩)

/-- The lines of a text with their tokens, from a place on. -/
def traceFrom (grammar : LoadedGrammar σ) :
    TraceState σ → List String → Except ScanError (List TracedLine)
  | _, [] => .ok []
  | place, line :: lines => do
    let (tokens, place) ← grammar.traceLine place line
    return ⟨line, tokens⟩ :: (← grammar.traceFrom place lines)

/-- The trace of a text. -/
def trace (grammar : LoadedGrammar σ) (lines : List String) : Except ScanError Trace := do
  return ⟨grammar.kind, ← grammar.traceFrom grammar.startTrace lines⟩

/-- What comes of lines that are asked for one by one. A line that fails leaves the place as it was,
and the next line is asked for there. -/
def feed (grammar : LoadedGrammar σ) : TraceState σ → List String → List FedLine
  | _, [] => []
  | place, line :: lines =>
    match grammar.traceLine place line with
    | .ok (tokens, next) => ⟨line, .ok tokens⟩ :: grammar.feed next lines
    | .error error => ⟨line, .error error⟩ :: grammar.feed place lines

end LoadedGrammar

end HighlightGrammar

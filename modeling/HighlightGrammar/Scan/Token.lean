import HighlightGrammar.Kind

/-! # Tokens of a line

A scanner cuts a line into tokens and names each with scopes, from the root of the document to the
innermost rule. Offsets count characters. -/
namespace HighlightGrammar

/-- A span of a line with its scopes, the outermost one first. -/
structure Token where
  start : Nat
  stop : Nat
  scopes : List String
deriving DecidableEq, Repr, Inhabited

/-- What can be wrong with a token. -/
inductive TokenFault where
  | outOfBounds (lineLength : Nat)
  | noScopes
deriving DecidableEq, Repr

def TokenFault.message : TokenFault → String
  | outOfBounds lineLength => s!"span out of bounds for a line of {lineLength} characters"
  | noScopes => "token has no scopes"

/-- Why a text could not be scanned. -/
inductive ScanError where
  /-- A grammar that cannot be compiled. -/
  | compile (kind : Kind) (reason : String)
  | tokenizer (text : String)
  | invalidToken (start stop : Nat) (fault : TokenFault)
  /-- An error in a line, the first line being line zero. -/
  | atLine (line : Nat) (error : ScanError)
deriving DecidableEq, Repr

def ScanError.message : ScanError → String
  | compile kind reason => s!"failed to compile {kind} grammar: {reason}"
  | tokenizer text => s!"tokenizer failed: {text}"
  | invalidToken start stop fault => s!"invalid token {start}..{stop}: {fault.message}"
  | atLine line error => s!"line {line}: {error.message}"

namespace Token

/-- The number of characters of a token. -/
def length (token : Token) : Nat := token.stop - token.start

def isEmpty (token : Token) : Bool := token.length == 0

/-- A token has to lie in its line and to have a scope. -/
def validate (token : Token) (lineLength : Nat) : Except ScanError Unit :=
  if token.start > token.stop ∨ token.stop > lineLength then
    .error (.invalidToken token.start token.stop (.outOfBounds lineLength))
  else if token.scopes.isEmpty then .error (.invalidToken token.start token.stop .noScopes)
  else .ok ()

theorem validate_eq_ok_iff (token : Token) (lineLength : Nat) :
    token.validate lineLength = .ok () ↔
      token.start ≤ token.stop ∧ token.stop ≤ lineLength ∧ token.scopes ≠ [] := by
  unfold validate
  split
  · next h => simp only [reduceCtorEq, false_iff]; omega
  · next h =>
    split
    · next hs => simp [List.isEmpty_iff.1 hs]
    · next hs => simpa [List.isEmpty_iff] using ⟨by omega, by omega, by simpa using hs⟩

end Token

/-- Whether all scopes of a token belong to a kind. -/
def Kind.ownsToken (kind : Kind) (token : Token) : Bool := token.scopes.all kind.ownsScope

end HighlightGrammar

import HighlightGrammar.Grammar.Output
import HighlightGrammar.Storage.Basic
import HighlightGrammar.Yaml.Reader

/-! # What can go wrong with a grammar -/
namespace HighlightGrammar

/-- Why a text is no grammar document. -/
inductive DocumentFault where
  | unreadable (error : Yaml.ReadError)
  | shape (error : ShapeError)
deriving DecidableEq, Repr

def DocumentFault.message : DocumentFault → String
  | unreadable error => error.message
  | shape error => error.message

/-- Why a grammar could not be loaded or written. -/
inductive GrammarError where
  /-- The document named `origin` is no grammar. -/
  | malformed (origin : String) (fault : DocumentFault)
  | invalidVariable (error : InvalidVariable)
  | encoding (error : EncodingError)
  | storage (path : Path) (error : StorageError)
deriving DecidableEq, Repr

def GrammarError.message : GrammarError → String
  | malformed origin fault => s!"malformed grammar document {origin}: {fault.message}"
  | invalidVariable error => error.message
  | encoding error => s!"failed to serialize grammar: {error.message}"
  | storage path error => s!"{path}: {error.message}"

end HighlightGrammar

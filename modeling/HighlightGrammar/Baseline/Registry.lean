import HighlightGrammar.Grammar.Error
import HighlightGrammar.Scan.Tokenizer

/-! # Loaded grammars

Both grammars are loaded before the first document is traced. One that cannot be loaded is
remembered with its fault, and only the documents that need it fail. -/
namespace HighlightGrammar

/-- Why a grammar could not be made ready. -/
inductive LoadFault where
  | grammar (error : GrammarError)
  | scan (error : ScanError)
deriving DecidableEq, Repr

def LoadFault.message : LoadFault → String
  | grammar error => error.message
  | scan error => error.message

/-- The two grammars, each ready or with the fault that keeps it from being so. -/
structure GrammarRegistry (σ : Type) where
  source : Except LoadFault (LoadedGrammar σ)
  form : Except LoadFault (LoadedGrammar σ)

/-- What is known of the grammar of a kind. -/
def GrammarRegistry.slot {σ : Type} (registry : GrammarRegistry σ) :
    Kind → Except LoadFault (LoadedGrammar σ)
  | .source => registry.source
  | .form => registry.form

end HighlightGrammar

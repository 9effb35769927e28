import HighlightGrammar.Baseline.Suite
import HighlightGrammar.Build

/-! # Loading both grammars

The grammars that a project's settings name, compiled by a backend. -/
namespace HighlightGrammar

variable {σ : Type} {m : Type → Type} [Monad m] [Storage m] [MatcherEngine]

/-- Loads and compiles the grammar of a kind. -/
def Settings.loadCompiled (settings : Settings) (backend : ScannerBackend σ) (kind : Kind) :
    ExceptT LoadFault m (LoadedGrammar σ) := do
  let grammar ← (settings.loadGrammar kind : ExceptT GrammarError m Grammar).adapt .grammar
  let tokenizer ← ExceptT.mk (pure ((backend.compile kind grammar).mapError .scan))
  return ⟨kind, (settings.grammar kind).displayName, grammar, tokenizer⟩

/-- Loads both grammars; each succeeds or fails alone. -/
def GrammarRegistry.load (settings : Settings) (backend : ScannerBackend σ) :
    m (GrammarRegistry σ) := do
  let source ← (settings.loadCompiled backend .source).run
  let form ← (settings.loadCompiled backend .form).run
  return ⟨source, form⟩

/-- The folders that the settings name. -/
def BaselineLayout.ofSettings (settings : BaselineSettings) : BaselineLayout :=
  ⟨settings.cases, settings.baselines, settings.generated⟩

end HighlightGrammar

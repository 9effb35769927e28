import HighlightGrammar.Grammar.Loader
import HighlightGrammar.Kind

/-! # Settings

What a project sets: where its grammars are read from and written to, in which format, and where the
cases and reports of its baselines lie. -/
namespace HighlightGrammar

/-- Where a grammar is read from and written to. -/
structure GrammarSettings where
  source : Path
  /-- The file that is written, seen from the output folder. -/
  output : Path
  /-- Texts that take the place of those of the document's variables. -/
  overrides : VariableTable
deriving Repr

namespace GrammarSettings

/-- The loader with the overrides of a grammar. -/
def loader (settings : GrammarSettings) : GrammarLoader :=
  GrammarLoader.plain.withOverrides settings.overrides

/-- The name of the output file, as reports show it. -/
def displayName (settings : GrammarSettings) : String :=
  settings.output.fileName?.getD settings.output.text

end GrammarSettings

/-- Where the baselines lie. -/
structure BaselineSettings where
  cases : Path
  baselines : Path
  generated : Path
deriving DecidableEq, Repr

/-- The settings of a project. -/
structure Settings where
  /-- The level of messages. -/
  level : String
  outputFolder : Path
  format : OutputFormat
  source : GrammarSettings
  form : GrammarSettings
  baselines : BaselineSettings
deriving Repr

namespace Settings

/-- The settings of a kind. -/
def grammar (settings : Settings) : Kind → GrammarSettings
  | .source => settings.source
  | .form => settings.form

/-- Where the grammar of a kind is written to. -/
def outputPath (settings : Settings) (kind : Kind) : Path :=
  settings.outputFolder.join (settings.grammar kind).output

end Settings

end HighlightGrammar

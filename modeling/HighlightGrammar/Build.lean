import HighlightGrammar.Settings.Basic

/-! # Building grammars

A grammar is built by loading it with the overrides of its kind and writing it in the configured
format. It is encoded before any folder is made, so a grammar that has no text in the format leaves
all files as they were. One kind that fails does not keep the other from being built. -/
namespace HighlightGrammar

/-- A grammar that has been written. -/
structure BuiltGrammar where
  kind : Kind
  output : Path
  /-- The placeholders that are left in it. -/
  unresolved : List UnresolvedPlaceholder
deriving Repr

/-- What became of a kind. -/
structure BuildOutcome where
  kind : Kind
  result : Except GrammarError BuiltGrammar

section Building

variable {m : Type → Type} [Monad m] [Storage m] [MatcherEngine]

/-- Writes a text to a file, with the folders around it. A fault of theirs is reported with the
folder. -/
def writeWithFolders (path : Path) (text : String) : ExceptT GrammarError m Unit := do
  match path.parent? with
  | some parent =>
    if parent.text.isEmpty then pure ()
    else (Storage.createFolders parent : ExceptT StorageError m Unit).adapt (.storage parent)
  | none => pure ()
  (Storage.writeText path text : ExceptT StorageError m Unit).adapt (.storage path)

/-- Writes a grammar in a format. -/
def Grammar.write (grammar : Grammar) (path : Path) (format : OutputFormat) :
    ExceptT GrammarError m Unit := do
  let text ← ExceptT.mk (pure ((grammar.encode format).mapError .encoding))
  writeWithFolders path text

namespace Settings

/-- Loads the grammar of a kind. -/
def loadGrammar (settings : Settings) (kind : Kind) : ExceptT GrammarError m Grammar :=
  (settings.grammar kind).loader.loadFile (settings.grammar kind).source

/-- Builds the grammar of a kind. -/
def buildGrammar (settings : Settings) (kind : Kind) : ExceptT GrammarError m BuiltGrammar := do
  let grammar ← settings.loadGrammar kind
  let output := settings.outputPath kind
  grammar.write output settings.format
  return ⟨kind, output, grammar.unresolved⟩

/-- Builds the grammars of both kinds. -/
def buildGrammars (settings : Settings) : m (List BuildOutcome) :=
  Kind.all.mapM fun kind => do return ⟨kind, ← (settings.buildGrammar kind).run⟩

end Settings

end Building

end HighlightGrammar

import HighlightGrammar.Grammar.Error

/-! # Loading grammars

A loader reads a document, revises its variables and puts them into its patterns. A new loader
leaves the variables as they are declared. -/
namespace HighlightGrammar

variable [MatcherEngine]

/-- How grammars are loaded. -/
structure GrammarLoader where
  /-- What becomes of the variables before they are resolved. -/
  revise : VariableTable → VariableTable

namespace GrammarLoader

/-- The loader that leaves variables alone. -/
def plain : GrammarLoader := ⟨id⟩

/-- A loader that applies overrides, in place of any other revision. Without overrides nothing
changes. -/
def withOverrides (loader : GrammarLoader) (overrides : VariableTable) : GrammarLoader :=
  if overrides.isEmpty then loader else ⟨fun table => table.applyOverrides overrides⟩

/-- Resolves a document. -/
def resolve (loader : GrammarLoader) (document : Document) : Except GrammarError Grammar := do
  let resolver ← (VariableResolver.ofTable (loader.revise document.variableTable)).mapError
    .invalidVariable
  return resolver.resolve document.body

/-- Loads a grammar from a tree. -/
def loadTree (loader : GrammarLoader) (origin : String) (tree : Tree) :
    Except GrammarError Grammar := do
  let document ← (Document.ofTree tree).mapError fun error => .malformed origin (.shape error)
  loader.resolve document

/-- Loads a grammar from YAML text, named `origin` in errors. -/
def loadText (loader : GrammarLoader) (origin text : String) : Except GrammarError Grammar := do
  let tree ← (Yaml.read text).mapError fun error => .malformed origin (.unreadable error)
  loader.loadTree origin tree

/-- Loads a grammar from a file. -/
def loadFile {m : Type → Type} [Monad m] [Storage m] (loader : GrammarLoader) (path : Path) :
    ExceptT GrammarError m Grammar := do
  let text ← (Storage.readText path : ExceptT StorageError m String).adapt (.storage path)
  ExceptT.mk (pure (loader.loadText path.text text))

end GrammarLoader

end HighlightGrammar

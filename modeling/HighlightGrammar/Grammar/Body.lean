import HighlightGrammar.Grammar.Placeholder
import HighlightGrammar.Grammar.Rule.Patterns
import HighlightGrammar.Grammar.Rule.Reading
import HighlightGrammar.Grammar.Rule.Writing

/-! # The body of a grammar

The rules of a grammar with everything else that its document says, variables aside. -/
namespace HighlightGrammar

/-- The rules and attributes of a grammar. -/
structure GrammarBody where
  /-- All entries that hold no rules. -/
  attributes : Entries
  /-- The rules that a document starts with, absent where the document has none. -/
  patterns : Option (List Rule)
  /-- Rules by name. -/
  repository : Option RuleMap
deriving Inhabited

namespace GrammarBody

def empty : GrammarBody := ⟨[], none, none⟩

/-- Revises every pattern text, the first rules before the named ones. -/
def mapPatternsM {m : Type → Type} [Monad m] (f : PatternField → String → m String)
    (body : GrammarBody) : m GrammarBody := do
  let patterns ← Rule.mapOptionalItemsM f body.patterns
  let repository ← Rule.mapOptionalNamedM f body.repository
  return { body with patterns, repository }

/-- Revises every pattern text by a plain function. -/
def mapPatterns (f : PatternField → String → String) (body : GrammarBody) : GrammarBody :=
  Id.run (body.mapPatternsM fun field text => pure (f field text))

/-- Every pattern text with its place, the first rules before the named ones. -/
def visits (body : GrammarBody) : List Visit :=
  Rule.visitOptionalItems .root body.patterns ++ Rule.visitOptionalMap .root body.repository

/-- The tree of a body: its attributes and then its rules. -/
def toTree (body : GrammarBody) : Tree :=
  .mapping <| Entries.putTexts body.attributes <|
    Rule.patternsEntry body.patterns ++ Rule.repositoryEntry body.repository

/-- Equality by meaning: the order of named entries does not count. -/
def same (left right : GrammarBody) : Bool :=
  Tree.same (.mapping left.attributes) (.mapping right.attributes) &&
    Rule.sameOptionalItems left.patterns right.patterns &&
    Rule.sameOptionalMap left.repository right.repository

end GrammarBody

end HighlightGrammar

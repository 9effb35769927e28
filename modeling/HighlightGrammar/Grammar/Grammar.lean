import HighlightGrammar.Grammar.Document
import HighlightGrammar.Grammar.VariableResolver

/-! # Resolved grammars

A grammar whose variables have been put into its patterns. It holds no variables, and a placeholder
that it still holds was declared nowhere or refers to itself. -/
namespace HighlightGrammar

/-- A grammar that stands on its own. -/
structure Grammar where
  body : GrammarBody
deriving Inhabited

/-- A placeholder that is left in a grammar. -/
structure UnresolvedPlaceholder where
  /-- The text of the place where its rule is. -/
  path : String
  field : PatternField
  name : String
deriving DecidableEq, Repr

namespace Grammar

/-- The first rules of a grammar. -/
def patterns (grammar : Grammar) : List Rule := grammar.body.patterns.getD []

/-- The rule of a name. -/
def rule? (grammar : Grammar) (name : String) : Option Rule :=
  grammar.body.repository.bind (Table.get? (· == ·) name)

/-- The text under `scopeName`. -/
def scopeName? (grammar : Grammar) : Option String :=
  (Entries.get? grammar.body.attributes "scopeName").bind Tree.text?

def toTree (grammar : Grammar) : Tree := grammar.body.toTree

/-- Equality by meaning: the order of named entries does not count. -/
def same (left right : Grammar) : Bool := left.body.same right.body

/-- The placeholders in a pattern text, with the text of its place. -/
def placeholdersIn (visit : Visit) : List UnresolvedPlaceholder :=
  (Placeholder.names visit.text).map fun name => ⟨visit.path.text, visit.field, name⟩

/-- All placeholders that are left. -/
def unresolved (grammar : Grammar) : List UnresolvedPlaceholder :=
  grammar.body.visits.flatMap placeholdersIn

end Grammar

/-- The grammar of a body whose patterns have been expanded. -/
def VariableResolver.resolve (resolver : VariableResolver) (body : GrammarBody) : Grammar :=
  ⟨body.mapPatterns fun _ text => resolver.expand text⟩

end HighlightGrammar

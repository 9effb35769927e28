import HighlightGrammar.Grammar.Rule.Basic
import HighlightGrammar.Grammar.RulePath

/-! # The pattern texts of a rule

Two walks over the texts of a rule: one revises every text, with an effect if there is one, and
one lists every text with its place. Neither looks into targets, attributes or trees that are no
rules. The revising walk goes through nested rules, repository and captures in this order; the
listing goes through captures, nested rules and repository. -/
namespace HighlightGrammar

/-- A text of a rule with its place. -/
structure Visit where
  path : RulePath
  field : PatternField
  text : String
deriving DecidableEq, Repr

namespace RuleKind

variable {m : Type → Type} [Monad m]

def mapOptionalM (field : PatternField) (f : PatternField → String → m String) :
    Option String → m (Option String)
  | none => pure none
  | some text => do return some (← f field text)

/-- Revises the patterns of a kind in the order of `patterns`. -/
def mapPatternsM (f : PatternField → String → m String) : RuleKind → m RuleKind
  | single pattern => do return single (← f .matchPattern pattern)
  | region opening closing going => do
    let opening ← f .beginPattern opening
    let closing ← mapOptionalM .endPattern f closing
    let going ← mapOptionalM .whilePattern f going
    return region opening closing going
  | reference target => pure (reference target)
  | container => pure container
  | verbatim tree => pure (verbatim tree)

end RuleKind

namespace Rule

section Revising

variable {m : Type → Type} [Monad m]

def mapExtraM (f : PatternField → String → m String) :
    List (PatternField × String) → m (List (PatternField × String))
  | [] => pure []
  | (field, text) :: rest => do
    let text ← f field text
    return (field, text) :: (← mapExtraM f rest)

mutual

/-- Revises every pattern text of a rule. -/
def mapPatternsM (f : PatternField → String → m String) : Rule → m Rule
  | ⟨kind, extra, patterns, repository, captures, attributes⟩ => do
    let kind ← kind.mapPatternsM f
    let extra ← mapExtraM f extra
    let patterns ← mapOptionalItemsM f patterns
    let repository ← mapOptionalNamedM f repository
    let captures ← mapCapturesM f captures
    return ⟨kind, extra, patterns, repository, captures, attributes⟩
termination_by structural rule => rule

def mapOptionalItemsM (f : PatternField → String → m String) :
    Option (List Rule) → m (Option (List Rule))
  | none => pure none
  | some rules => do return some (← mapItemsM f rules)
termination_by structural rules => rules

def mapOptionalNamedM (f : PatternField → String → m String) :
    Option (List (String × Rule)) → m (Option (List (String × Rule)))
  | none => pure none
  | some rules => do return some (← mapNamedM f rules)
termination_by structural rules => rules

def mapItemsM (f : PatternField → String → m String) : List Rule → m (List Rule)
  | [] => pure []
  | rule :: rules => do
    let rule ← mapPatternsM f rule
    return rule :: (← mapItemsM f rules)
termination_by structural rules => rules

def mapNamedM (f : PatternField → String → m String) :
    List (String × Rule) → m (List (String × Rule))
  | [] => pure []
  | (name, rule) :: rules => do
    let rule ← mapPatternsM f rule
    return (name, rule) :: (← mapNamedM f rules)
termination_by structural rules => rules

def mapCapturesM (f : PatternField → String → m String) :
    List (CaptureField × List (String × Rule)) → m (List (CaptureField × List (String × Rule)))
  | [] => pure []
  | (field, rules) :: rest => do
    let rules ← mapNamedM f rules
    return (field, rules) :: (← mapCapturesM f rest)
termination_by structural captures => captures

end

end Revising

/-- Revises every pattern text of a rule by a plain function. -/
def mapPatterns (f : PatternField → String → String) (rule : Rule) : Rule :=
  Id.run (rule.mapPatternsM fun field text => pure (f field text))

def visitTexts (path : RulePath) (texts : List (PatternField × String)) : List Visit :=
  texts.map fun e => ⟨path, e.1, e.2⟩

mutual

/-- The pattern texts of a rule at `path` with their places: those of its kind, the extra ones, and
then those of the rules in its captures, its nested rules and its repository. -/
def visits (path : RulePath) : Rule → List Visit
  | ⟨kind, extra, patterns, repository, captures, _⟩ =>
    visitTexts path kind.patterns ++ visitTexts path extra ++ visitCaptures path captures ++
      visitOptionalItems path patterns ++ visitOptionalMap path repository
termination_by structural rule => rule

def visitOptionalItems (path : RulePath) : Option (List Rule) → List Visit
  | none => []
  | some rules => visitItems (path.child "patterns") 0 rules
termination_by structural rules => rules

def visitOptionalMap (path : RulePath) : Option (List (String × Rule)) → List Visit
  | none => []
  | some rules => visitMap (path.child "repository") rules
termination_by structural rules => rules

def visitItems (path : RulePath) (start : Nat) : List Rule → List Visit
  | [] => []
  | rule :: rules => visits (path.item start) rule ++ visitItems path (start + 1) rules
termination_by structural rules => rules

def visitMap (path : RulePath) : List (String × Rule) → List Visit
  | [] => []
  | (name, rule) :: rules => visits (path.child name) rule ++ visitMap path rules
termination_by structural rules => rules

def visitCaptures (path : RulePath) : List (CaptureField × List (String × Rule)) → List Visit
  | [] => []
  | (field, rules) :: rest => visitMap (path.child field.key) rules ++ visitCaptures path rest
termination_by structural captures => captures

end

end Rule

end HighlightGrammar

import HighlightGrammar.Grammar.Field
import HighlightGrammar.Tree

/-! # Rules

A rule either matches one pattern, opens and closes a region, points to another rule, or only holds
nested rules. Everything else that a document says where a rule is expected is carried along as it
is. A rule keeps all of its fields: what its kind has no use for stays beside it as extra patterns
and attributes. -/
namespace HighlightGrammar

/-- What a rule does. -/
inductive RuleKind where
  /-- One pattern. -/
  | single (pattern : String)
  /-- A region with a beginning, and an end or a condition to go on. -/
  | region (opening : String) (closing going : Option String)
  /-- Another rule in its place. -/
  | reference (target : String)
  /-- Nothing of its own, only nested rules. -/
  | container
  /-- A tree that is no rule. -/
  | verbatim (tree : Tree)
deriving Inhabited

namespace RuleKind

/-- The patterns of a kind with their fields, in the order in which they are written. -/
def patterns : RuleKind → List (PatternField × String)
  | single pattern => [(.matchPattern, pattern)]
  | region opening closing going =>
    (.beginPattern, opening) :: (closing.map fun text => (PatternField.endPattern, text)).toList ++
      (going.map fun text => (PatternField.whilePattern, text)).toList
  | reference _ => []
  | container => []
  | verbatim _ => []

/-- Equality of kinds, trees compared by meaning. -/
def same : RuleKind → RuleKind → Bool
  | single a, single b => a == b
  | region a b c, region x y z => a == x && b == y && c == z
  | reference a, reference b => a == b
  | container, container => true
  | verbatim a, verbatim b => a.same b
  | _, _ => false

end RuleKind

/-- A rule with everything that its document says about it. -/
structure Rule where
  kind : RuleKind
  /-- Patterns that the kind has no use for. -/
  extra : List (PatternField × String)
  /-- Nested rules, absent where the document has none. -/
  patterns : Option (List Rule)
  /-- Nested rules by name. -/
  repository : Option (List (String × Rule))
  /-- Rules for the groups of the patterns. -/
  captures : List (CaptureField × List (String × Rule))
  /-- All other entries. -/
  attributes : Entries
deriving Inhabited

/-- Rules by name, in order of first arrival. -/
abbrev RuleMap := List (String × Rule)

namespace Rule

/-- A tree that is no rule, carried along. -/
def ofVerbatim (tree : Tree) : Rule := ⟨.verbatim tree, [], none, none, [], []⟩

/-- The text under `name`. -/
def name? (rule : Rule) : Option String := (Entries.get? rule.attributes "name").bind Tree.text?

mutual

/-- Equality of rules by meaning: the order of named entries does not count. -/
def same : Rule → Rule → Bool
  | ⟨kind, extra, patterns, repository, captures, attributes⟩, other =>
    kind.same other.kind && Table.agree (· == ·) (· == ·) extra other.extra &&
      sameOptionalItems patterns other.patterns && sameOptionalMap repository other.repository &&
      captures.length == other.captures.length && sameCaptures captures other.captures &&
      Tree.same (.mapping attributes) (.mapping other.attributes)
termination_by structural rule => rule

def sameOptionalItems : Option (List Rule) → Option (List Rule) → Bool
  | none, none => true
  | some rules, some others => sameItems rules others
  | _, _ => false
termination_by structural rules => rules

def sameOptionalMap : Option (List (String × Rule)) → Option (List (String × Rule)) → Bool
  | none, none => true
  | some rules, some others => rules.length == others.length && sameMap rules others
  | _, _ => false
termination_by structural rules => rules

def sameItems : List Rule → List Rule → Bool
  | [], [] => true
  | rule :: rules, other :: others => same rule other && sameItems rules others
  | _, _ => false
termination_by structural rules => rules

def sameMap : List (String × Rule) → List (String × Rule) → Bool
  | [], _ => true
  | (name, rule) :: rules, others =>
    (match Table.get? (· == ·) name others with
      | some other => same rule other
      | none => false) && sameMap rules others
termination_by structural rules => rules

def sameCaptures : List (CaptureField × List (String × Rule)) →
    List (CaptureField × List (String × Rule)) → Bool
  | [], _ => true
  | (field, rules) :: rest, others =>
    (match Table.get? (· == ·) field others with
      | some other => rules.length == other.length && sameMap rules other
      | none => false) && sameCaptures rest others
termination_by structural captures => captures

end

end Rule

end HighlightGrammar

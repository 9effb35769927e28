import HighlightGrammar.Grammar.Rule.Basic

/-! # Writing rules

A rule is written as its attributes followed by its fields: the patterns of its kind, its target,
the extra patterns, the captures, the nested rules and the repository. A field whose key is already
among the attributes is written in its place. -/
namespace HighlightGrammar.Rule

def patternEntries (patterns : List (PatternField × String)) : List (String × Tree) :=
  patterns.map fun e => (e.1.key, .string e.2)

def targetEntries : RuleKind → List (String × Tree)
  | .reference target => [("include", .string target)]
  | _ => []

mutual

/-- The tree of a rule. -/
def toTree : Rule → Tree
  | ⟨kind, extra, patterns, repository, captures, attributes⟩ =>
    match kind with
    | .verbatim tree => tree
    | kind => .mapping <| Entries.putTexts attributes <|
        patternEntries kind.patterns ++ targetEntries kind ++ patternEntries extra ++
          captureEntries captures ++ patternsEntry patterns ++ repositoryEntry repository
termination_by structural rule => rule

def patternsEntry : Option (List Rule) → List (String × Tree)
  | none => []
  | some rules => [("patterns", .sequence (itemTrees rules))]
termination_by structural rules => rules

def repositoryEntry : Option (List (String × Rule)) → List (String × Tree)
  | none => []
  | some rules => [("repository", .mapping (namedTrees rules))]
termination_by structural rules => rules

def captureEntries : List (CaptureField × List (String × Rule)) → List (String × Tree)
  | [] => []
  | (field, rules) :: rest => (field.key, .mapping (namedTrees rules)) :: captureEntries rest
termination_by structural captures => captures

def itemTrees : List Rule → List Tree
  | [] => []
  | rule :: rules => toTree rule :: itemTrees rules
termination_by structural rules => rules

def namedTrees : List (String × Rule) → List (Tree × Tree)
  | [] => []
  | (name, rule) :: rules => (.string name, toTree rule) :: namedTrees rules
termination_by structural rules => rules

end

theorem itemTrees_eq_map (rules : List Rule) : itemTrees rules = rules.map toTree := by
  induction rules with
  | nil => rfl
  | cons rule rules ih => rw [itemTrees, ih, List.map_cons]

theorem namedTrees_eq_map (rules : RuleMap) :
    namedTrees rules = rules.map fun e => (.string e.1, e.2.toTree) := by
  induction rules with
  | nil => rfl
  | cons e rules ih => obtain ⟨name, rule⟩ := e; rw [namedTrees, ih, List.map_cons]

end HighlightGrammar.Rule

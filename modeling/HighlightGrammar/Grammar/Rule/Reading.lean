import HighlightGrammar.Grammar.Rule.Basic

/-! # Reading rules

Every tree is a rule. A mapping is read entry by entry: an entry whose key names a field and whose
value suits that field fills it, and every other entry becomes an attribute. When all entries have
been seen, the kind of the rule is told by which fields are filled. -/
namespace HighlightGrammar

/-- A rule of which some entries have been read. -/
structure RuleDraft where
  /-- Pattern fields with their texts. -/
  slots : List (PatternField × String)
  target : Option String
  patterns : Option (List Rule)
  repository : Option RuleMap
  captures : List (CaptureField × RuleMap)
  attributes : Entries

namespace RuleDraft

def empty : RuleDraft := ⟨[], none, none, none, [], []⟩

def addAttribute (draft : RuleDraft) (key value : Tree) : RuleDraft :=
  { draft with attributes := Entries.put draft.attributes key value }

/-- The text of a pattern field. -/
def slot? (draft : RuleDraft) (field : PatternField) : Option String :=
  Table.get? (· == ·) field draft.slots

/-- Adds an entry. `items` and `rules` are what the value holds when it is read as a list of rules
and as a map of rules. -/
def add (draft : RuleDraft) (key value : Tree) (items : Option (List Rule))
    (rules : Option RuleMap) : RuleDraft :=
  match key with
  | .string name =>
    match FieldRole.of name, value, items, rules with
    | .pattern field, .string text, _, _ =>
      { draft with slots := Table.put (· == ·) field text draft.slots }
    | .includeTarget, .string target, _, _ => { draft with target := some target }
    | .patterns, _, some items, _ => { draft with patterns := some items }
    | .repository, _, _, some rules => { draft with repository := some rules }
    | .captures field, _, _, some rules =>
      { draft with captures := Table.put (· == ·) field rules draft.captures }
    | _, _, _, _ => draft.addAttribute key value
  | _ => draft.addAttribute key value

/-- The kind that the filled fields make: a target goes before a beginning, a beginning before a
single pattern. -/
def kind (draft : RuleDraft) : RuleKind :=
  match draft.target, draft.slot? .beginPattern, draft.slot? .matchPattern with
  | some target, _, _ => .reference target
  | none, some opening, _ =>
    .region opening (draft.slot? .endPattern) (draft.slot? .whilePattern)
  | none, none, some pattern => .single pattern
  | none, none, none => .container

/-- The pattern fields that a kind holds. -/
def heldBy : RuleKind → List PatternField
  | .single _ => [.matchPattern]
  | .region _ _ _ => [.beginPattern, .endPattern, .whilePattern]
  | .reference _ => []
  | .container => []
  | .verbatim _ => []

/-- The filled pattern fields that the kind does not hold. -/
def leftover (draft : RuleDraft) : List (PatternField × String) :=
  (PatternField.all.filter fun field => !(heldBy draft.kind).contains field).filterMap fun field =>
    (draft.slot? field).map fun text => (field, text)

/-- The rule that a finished draft stands for. -/
def finish (draft : RuleDraft) : Rule where
  kind := draft.kind
  extra := draft.leftover
  patterns := draft.patterns
  repository := draft.repository
  captures := draft.captures
  attributes := draft.attributes

end RuleDraft

namespace Rule

/-- A mapping holds rules by name only when every key has a name. -/
def allNamed (entries : Entries) : Bool := entries.all fun e => e.1.name?.isSome

mutual

/-- The rule that a tree stands for. -/
def ofTree : Tree → Rule
  | .mapping entries => (readEntries entries .empty).finish
  | tree => ofVerbatim tree
termination_by structural tree => tree

/-- A sequence read as a list of rules. -/
def itemsOf? : Tree → Option (List Rule)
  | .sequence items => some (readItems items)
  | _ => none
termination_by structural tree => tree

/-- A mapping read as rules by name. Of two keys with one name the later rule stays, at the place
of the earlier one. -/
def mapOf? : Tree → Option (List (String × Rule))
  | .mapping entries =>
    if allNamed entries then some (Table.ofList (· == ·) (readNamed entries)) else none
  | _ => none
termination_by structural tree => tree

def readItems : List Tree → List Rule
  | [] => []
  | tree :: trees => ofTree tree :: readItems trees
termination_by structural trees => trees

def readNamed : List (Tree × Tree) → List (String × Rule)
  | [] => []
  | (key, value) :: rest =>
    match key.name? with
    | some name => (name, ofTree value) :: readNamed rest
    | none => readNamed rest
termination_by structural entries => entries

def readEntries : List (Tree × Tree) → RuleDraft → RuleDraft
  | [], draft => draft
  | (key, value) :: rest, draft =>
    readEntries rest (draft.add key value (itemsOf? value) (mapOf? value))
termination_by structural entries => entries

end

end Rule

end HighlightGrammar

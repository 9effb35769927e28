import HighlightGrammar.Proofs.Documents.Sections
import HighlightGrammar.Proofs.Trees.Reordering

/-!
# Rewriting a document in place

What resolving does to a document can be told on its tree. At the places where rules stand the
strings of pattern fields are rewritten and the keys of rule maps become text; everything else stays
as it is. Reading a rule, revising its patterns and writing it again rewrites its tree in place, up
to the order of the entries inside mappings. -/
namespace HighlightGrammar

namespace Tree

/-- The keys whose strings are patterns. -/
def patternKeys : List String := ["match", "begin", "end", "while"]

/-- The keys of a rule that hold rules by name. -/
def ruleMapKeys : List String :=
  ["repository", "captures", "beginCaptures", "endCaptures", "whileCaptures"]

/-- A key as text, where it has a name. -/
def nameKey (key : Tree) : Tree := (key.name?.map string).getD key

section

variable (f : String → String)

def rewriteText : Tree → Tree
  | string text => string (f text)
  | tree => tree

mutual

/-- Rewrites the tree of a rule: only a mapping without tags has anything to rewrite. -/
def rewriteRule : Tree → Tree
  | mapping entries => mapping (rewriteFields entries)
  | tree => tree
termination_by structural tree => tree

/-- Rewrites a value that holds rules if it is a sequence. -/
def rewriteItems : Tree → Tree
  | sequence items => sequence (rewriteEach items)
  | tree => tree
termination_by structural tree => tree

/-- Rewrites a value that holds rules by name if it is a mapping with named keys only. -/
def rewriteMap : Tree → Tree
  | mapping entries =>
    if Rule.allNamed entries then mapping (rewriteNamed entries) else mapping entries
  | tree => tree
termination_by structural tree => tree

def rewriteEach : List Tree → List Tree
  | [] => []
  | tree :: trees => rewriteRule tree :: rewriteEach trees
termination_by structural trees => trees

def rewriteNamed : List (Tree × Tree) → List (Tree × Tree)
  | [] => []
  | (key, value) :: rest => (nameKey key, rewriteRule value) :: rewriteNamed rest
termination_by structural entries => entries

/-- Rewrites the fields of a rule, each told by its plain key. -/
def rewriteFields : List (Tree × Tree) → List (Tree × Tree)
  | [] => []
  | (key, value) :: rest =>
    (key, match key.plainText? with
      | some name =>
        if name ∈ patternKeys then rewriteText f value
        else if name = "patterns" then rewriteItems value
        else if name ∈ ruleMapKeys then rewriteMap value
        else value
      | none => value) :: rewriteFields rest
termination_by structural entries => entries

end

def rewriteField (key value : Tree) : Tree :=
  match key.plainText? with
  | some name =>
    if name ∈ patternKeys then rewriteText f value
    else if name = "patterns" then rewriteItems f value
    else if name ∈ ruleMapKeys then rewriteMap f value
    else value
  | none => value

def rewriteSection (key value : Tree) : Tree :=
  match key.plainText? with
  | some name =>
    if name = "patterns" then rewriteItems f value
    else if name = "repository" then rewriteMap f value
    else value
  | none => value

/-- Rewrites the tree of a document: the variables are dropped and the rules rewritten. -/
def rewriteDocument : Tree → Tree
  | mapping entries => mapping <|
      (entries.filter fun e => decide (e.1.plainText? ≠ some "variables")).map fun e =>
        (e.1, rewriteSection f e.1 e.2)
  | tree => tree

end

mutual

/-- The rule maps in the tree of a rule. -/
def ruleMaps : Tree → List (List (Tree × Tree))
  | mapping entries => fieldRuleMaps entries
  | _ => []
termination_by structural tree => tree

def itemRuleMaps : Tree → List (List (Tree × Tree))
  | sequence items => eachRuleMaps items
  | _ => []
termination_by structural tree => tree

def mapRuleMaps : Tree → List (List (Tree × Tree))
  | mapping entries => if Rule.allNamed entries then entries :: namedRuleMaps entries else []
  | _ => []
termination_by structural tree => tree

def eachRuleMaps : List Tree → List (List (Tree × Tree))
  | [] => []
  | tree :: trees => ruleMaps tree ++ eachRuleMaps trees
termination_by structural trees => trees

def namedRuleMaps : List (Tree × Tree) → List (List (Tree × Tree))
  | [] => []
  | (_, value) :: rest => ruleMaps value ++ namedRuleMaps rest
termination_by structural entries => entries

def fieldRuleMaps : List (Tree × Tree) → List (List (Tree × Tree))
  | [] => []
  | (key, value) :: rest =>
    (match key.plainText? with
      | some name =>
        if name = "patterns" then itemRuleMaps value
        else if name ∈ ruleMapKeys then mapRuleMaps value
        else []
      | none => []) ++ fieldRuleMaps rest
termination_by structural entries => entries

end

def valueRuleMaps (key value : Tree) : List Entries :=
  match key.plainText? with
  | some name =>
    if name = "patterns" then itemRuleMaps value
    else if name ∈ ruleMapKeys then mapRuleMaps value
    else []
  | none => []

def sectionRuleMaps (key value : Tree) : List Entries :=
  match key.plainText? with
  | some name =>
    if name = "patterns" then itemRuleMaps value
    else if name = "repository" then mapRuleMaps value
    else []
  | none => []

/-- The rule maps in the tree of a document. -/
def documentRuleMaps : Tree → List Entries
  | mapping entries => entries.flatMap fun e => sectionRuleMaps e.1 e.2
  | _ => []

end Tree

def Entries.names (entries : Entries) : List String := entries.filterMap fun e => e.1.name?

/-- No two keys of a rule map have the same text. -/
def Entries.DistinctNames (entries : Entries) : Prop := entries.names.Nodup

instance (entries : Entries) : Decidable entries.DistinctNames :=
  inferInstanceAs (Decidable entries.names.Nodup)

namespace Tree

variable {f : String → String}

theorem rewriteEach_eq_map (trees : List Tree) :
    rewriteEach f trees = trees.map (rewriteRule f) := by
  induction trees with
  | nil => rfl
  | cons tree trees ih => rw [rewriteEach, ih, List.map_cons]

theorem rewriteNamed_eq_map (entries : Entries) :
    rewriteNamed f entries = entries.map fun e => (nameKey e.1, rewriteRule f e.2) := by
  induction entries with
  | nil => rfl
  | cons e entries ih =>
    obtain ⟨key, value⟩ := e
    rw [rewriteNamed, ih, List.map_cons]

theorem rewriteFields_eq_map (entries : Entries) :
    rewriteFields f entries = entries.map fun e => (e.1, rewriteField f e.1 e.2) := by
  induction entries with
  | nil => rfl
  | cons e entries ih =>
    obtain ⟨key, value⟩ := e
    rw [rewriteFields, ih, List.map_cons, rewriteField]

theorem eachRuleMaps_eq_flatMap (trees : List Tree) :
    eachRuleMaps trees = trees.flatMap ruleMaps := by
  induction trees with
  | nil => rfl
  | cons tree trees ih => rw [eachRuleMaps, ih, List.flatMap_cons]

theorem namedRuleMaps_eq_flatMap (entries : Entries) :
    namedRuleMaps entries = entries.flatMap fun e => e.2.ruleMaps := by
  induction entries with
  | nil => rfl
  | cons e entries ih =>
    obtain ⟨key, value⟩ := e
    rw [namedRuleMaps, ih, List.flatMap_cons]

theorem fieldRuleMaps_eq_flatMap (entries : Entries) :
    fieldRuleMaps entries = entries.flatMap fun e => valueRuleMaps e.1 e.2 := by
  induction entries with
  | nil => rfl
  | cons e entries ih =>
    obtain ⟨key, value⟩ := e
    rw [fieldRuleMaps, ih, List.flatMap_cons, valueRuleMaps]

private theorem not_mem_keys_of_attribute {name : String} (h : FieldRole.of name = .attribute) :
    name ∉ patternKeys ∧ name ≠ "patterns" ∧ name ∉ ruleMapKeys := by
  refine ⟨?_, ?_, ?_⟩
  · intro hmem
    simp only [patternKeys, List.mem_cons, List.not_mem_nil, or_false] at hmem
    rcases hmem with rfl | rfl | rfl | rfl <;> revert h <;> decide
  · rintro rfl
    revert h
    decide
  · intro hmem
    simp only [ruleMapKeys, List.mem_cons, List.not_mem_nil, or_false] at hmem
    rcases hmem with rfl | rfl | rfl | rfl | rfl <;> revert h <;> decide

theorem rewriteField_string (name : String) (value : Tree) :
    rewriteField f (.string name) value = match FieldRole.of name with
      | .pattern _ => rewriteText f value
      | .patterns => rewriteItems f value
      | .repository => rewriteMap f value
      | .captures _ => rewriteMap f value
      | _ => value := by
  cases hrole : FieldRole.of name with
  | pattern field | captures field =>
    cases FieldRole.key_of hrole (by simp)
    cases field <;> rfl
  | includeTarget | patterns | repository =>
    cases FieldRole.key_of hrole (by simp)
    rfl
  | _ =>
    obtain ⟨htext, hitems, hmap⟩ := not_mem_keys_of_attribute hrole
    simp [rewriteField, plainText?, htext, hitems, hmap]

theorem valueRuleMaps_string (name : String) (value : Tree) :
    valueRuleMaps (.string name) value = match FieldRole.of name with
      | .patterns => itemRuleMaps value
      | .repository => mapRuleMaps value
      | .captures _ => mapRuleMaps value
      | _ => [] := by
  cases hrole : FieldRole.of name with
  | pattern field | captures field =>
    cases FieldRole.key_of hrole (by simp)
    cases field <;> rfl
  | includeTarget | patterns | repository =>
    cases FieldRole.key_of hrole (by simp)
    rfl
  | _ =>
    obtain ⟨-, hitems, hmap⟩ := not_mem_keys_of_attribute hrole
    simp [valueRuleMaps, plainText?, hitems, hmap]

end Tree

end HighlightGrammar

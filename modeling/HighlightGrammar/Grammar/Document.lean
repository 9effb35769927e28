import HighlightGrammar.Grammar.Body
import HighlightGrammar.Grammar.VariableTable

/-! # Grammar documents

A document is written as one mapping. Three of its sections are understood: the variables, the first
rules and the named rules; a section is known by its key, also behind a tag. Only the root and the
variables have to have a certain shape. Rules are taken as they come, and a section that cannot hold
rules is an attribute. -/
namespace HighlightGrammar

/-- A grammar as it is written, its placeholders in place. -/
structure Document where
  body : GrammarBody
  variableTable : VariableTable
deriving Inhabited

/-- What the key of an entry of a document says about it. -/
inductive Section where
  | variableTable
  | patterns
  | repository
  | attribute
deriving DecidableEq, Repr

/-- The section that a key opens. -/
def Section.of (key : Tree) : Section :=
  match key.text? with
  | some name =>
    if name = "variables" then .variableTable
    else if name = "patterns" then .patterns
    else if name = "repository" then .repository
    else .attribute
  | none => .attribute

namespace Document

def empty : Document := ⟨.empty, .empty⟩

/-- The place of the variables. -/
def variablesPath : RulePath := RulePath.root.child "variables"

/-- The variables that a mapping declares: names and texts have to be strings. -/
def variablesOf : Entries → VariableTable → Except ShapeError VariableTable
  | [], table => .ok table
  | (.string name, .string text) :: rest, table => variablesOf rest (table.insert name text)
  | (.string name, other) :: _, _ =>
    .error ⟨variablesPath.child name, s!"variable must be a string, found {other.describe}"⟩
  | (other, _) :: _, _ =>
    .error ⟨variablesPath, s!"variable name must be a string, found {other.describe}"⟩

def addAttribute (document : Document) (key value : Tree) : Document :=
  { document with
    body := { document.body with attributes := Entries.put document.body.attributes key value } }

/-- Adds an entry. A section that comes again replaces the first; variables that are null say
nothing. -/
def add (document : Document) (key value : Tree) : Except ShapeError Document :=
  match Section.of key, value with
  | .variableTable, .mapping entries => do
    return { document with variableTable := ← variablesOf entries .empty }
  | .variableTable, .null => .ok document
  | .variableTable, other =>
    .error ⟨variablesPath, s!"expected a variable table, found {other.describe}"⟩
  | .patterns, value =>
    match Rule.itemsOf? value with
    | some rules => .ok { document with body := { document.body with patterns := some rules } }
    | none => .ok (document.addAttribute key value)
  | .repository, value =>
    match Rule.mapOf? value with
    | some rules => .ok { document with body := { document.body with repository := some rules } }
    | none => .ok (document.addAttribute key value)
  | .attribute, value => .ok (document.addAttribute key value)

/-- The document that a tree holds. -/
def ofTree : Tree → Except ShapeError Document
  | .mapping entries => entries.foldlM (fun document e => document.add e.1 e.2) empty
  | other => .error ⟨.root, s!"expected a grammar mapping, found {other.describe}"⟩

end Document

end HighlightGrammar

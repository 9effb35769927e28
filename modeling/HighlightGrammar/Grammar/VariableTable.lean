import HighlightGrammar.Table

/-! # Variable tables

Named pattern fragments in the order of their declaration. A name is declared once; declaring it
again replaces its text where it stands. -/
namespace HighlightGrammar

/-- Variables with their texts, in order of declaration, no name twice. -/
structure VariableTable where
  entries : List (String × String)
  distinct : (entries.map Prod.fst).Nodup
deriving Repr

namespace VariableTable

def empty : VariableTable := ⟨[], by simp⟩

instance : Inhabited VariableTable := ⟨empty⟩

/-- The declared names, in order. -/
def names (table : VariableTable) : List String := table.entries.map Prod.fst

/-- The text of a variable. -/
def get? (table : VariableTable) (name : String) : Option String :=
  Table.get? (· == ·) name table.entries

/-- Declares a variable, in place if the name is known and otherwise as the last one. -/
def insert (table : VariableTable) (name text : String) : VariableTable :=
  ⟨Table.put (· == ·) name text table.entries, Table.nodup_keys_put table.distinct⟩

/-- Declares several variables in order. -/
def insertAll (table : VariableTable) (entries : List (String × String)) : VariableTable :=
  entries.foldl (fun table e => table.insert e.1 e.2) table

def ofList (entries : List (String × String)) : VariableTable := empty.insertAll entries

def isEmpty (table : VariableTable) : Bool := table.entries.isEmpty

/-- Puts an entry into a list that is sorted by name, behind those of its name. -/
def placeByName (entry : String × String) : List (String × String) → List (String × String)
  | [] => [entry]
  | e :: rest => if entry.1 < e.1 then entry :: e :: rest else e :: placeByName entry rest

/-- The entries sorted by name, in the order of code points. -/
def byName (table : VariableTable) : List (String × String) :=
  table.entries.foldl (fun sorted e => placeByName e sorted) []

/-- Takes the texts of `overrides` where they have one: known variables keep their place, the others
follow in the order of their names. -/
def applyOverrides (table overrides : VariableTable) : VariableTable :=
  table.insertAll overrides.byName

theorem names_insert (table : VariableTable) (name text : String) :
    (table.insert name text).names =
      if name ∈ table.names then table.names else table.names ++ [name] := by
  split
  · next h => exact Table.keys_put_of_mem h
  · next h => simp [names, insert, Table.put_of_not_mem h]

theorem get?_insert (table : VariableTable) (name text other : String) :
    (table.insert name text).get? other = if other = name then some text else table.get? other := by
  split
  · next h => subst h; exact Table.get?_put_self
  · next h => exact Table.get?_put_of_ne h

end VariableTable

end HighlightGrammar

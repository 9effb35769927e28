import HighlightGrammar.Table
import HighlightGrammar.Toml.Value

/-! # TOML tables in the making

A document defines its tables piece by piece, under headers and by dotted keys, and no table is
defined twice. So while a document is read each table remembers how it came to be: a table that only
lies around another may still get a header of its own, and one that dotted keys have made may only
get more of them. Values in brackets or braces are complete and take no additions. -/
namespace HighlightGrammar.Toml

/-- How a table came to be. -/
inductive Origin where
  /-- Under a header of its own. -/
  | header
  /-- Around the table of a header. -/
  | around
  /-- By a dotted key. -/
  | dotted
deriving DecidableEq, Repr

/-- What lies under a key of a table in the making. -/
inductive Item where
  | value (value : Value)
  | table (origin : Origin) (items : List (String × Item))
  /-- Tables under headers that are written alike, in order. -/
  | tables (elements : List (List (String × Item)))
deriving Inhabited

/-- The items of a table in the making. -/
abbrev Items := List (String × Item)

namespace Items

def get? (items : Items) (key : String) : Option Item := Table.get? (· == ·) key items

def put (items : Items) (key : String) (item : Item) : Items := Table.put (· == ·) key item items

/-- Changes the last of several tables. -/
def updateLast (f : Items → Option Items) : List Items → Option (List Items)
  | [] => none
  | [last] => (f last).map fun last => [last]
  | items :: rest => (updateLast f rest).map (items :: ·)

/-- Changes the table that a header leads to; tables around it are made on the way. -/
def within (f : Items → Option Items) : List String → Items → Option Items
  | [], items => f items
  | key :: path, items =>
    match items.get? key with
    | none => (within f path []).map fun inner => items.put key (.table .around inner)
    | some (.table origin inner) =>
      (within f path inner).map fun inner => items.put key (.table origin inner)
    | some (.tables elements) =>
      (updateLast (within f path) elements).map fun elements => items.put key (.tables elements)
    | some (.value _) => none

/-- Adds a value under a dotted key. The table that it goes to has to be made by dotted keys, unless
it is the one that the key starts from. -/
def add (value : Value) : List String → Items → Option Items
  | [], _ => none
  | [key], items => if (items.get? key).isSome then none else some (items.put key (.value value))
  | key :: path, items =>
    match items.get? key with
    | none => (add value path []).map fun inner => items.put key (.table .dotted inner)
    | some (.table .dotted inner) =>
      (add value path inner).map fun inner => items.put key (.table .dotted inner)
    | some (.table .around inner) =>
      if path.length = 1 then none
      else (add value path inner).map fun inner => items.put key (.table .around inner)
    | some (.tables elements) =>
      if path.length = 1 then none
      else (updateLast (add value path) elements).map fun elements =>
        items.put key (.tables elements)
    | some (.table .header _) => none
    | some (.value _) => none

/-- Opens the table of a header in the table around it. -/
def openTable (key : String) (items : Items) : Option Items :=
  match items.get? key with
  | none => some (items.put key (.table .header []))
  | some (.table .around inner) => some (items.put key (.table .header inner))
  | some _ => none

/-- Opens one more table of a header in double brackets. -/
def openElement (key : String) (items : Items) : Option Items :=
  match items.get? key with
  | none => some (items.put key (.tables [[]]))
  | some (.tables elements) => some (items.put key (.tables (elements ++ [[]])))
  | some _ => none

end Items

namespace Item

mutual

/-- The value of a finished item. -/
def toValue : Item → Value
  | .value held => held
  | .table _ items => .table (toValues items)
  | .tables elements => .array (toTables elements)
termination_by structural item => item

def toValues : List (String × Item) → List (String × Value)
  | [] => []
  | (key, item) :: items => (key, toValue item) :: toValues items
termination_by structural items => items

def toTables : List (List (String × Item)) → List Value
  | [] => []
  | items :: rest => .table (toValues items) :: toTables rest
termination_by structural elements => elements

end

end Item

end HighlightGrammar.Toml

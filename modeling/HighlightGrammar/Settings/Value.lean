import HighlightGrammar.Table
import HighlightGrammar.Text.Lowercase
import HighlightGrammar.Toml.Value

/-! # Values of settings

Settings come in layers of tables. Laying one table over another joins them key by key; any other
value replaces what was there. Keys are taken in lower case. A value remembers the file that it was
written in. -/
namespace HighlightGrammar

open Decimal

/-- A value without parts. -/
inductive SettingScalar where
  | nothing
  | bool (value : Bool)
  | int (value : Int)
  | float (value : Binary64)
  | string (text : String)
deriving DecidableEq, Repr

/-- A value of the settings, with the file that it was written in. -/
inductive Setting where
  | scalar (origin : Option String) (value : SettingScalar)
  | array (origin : Option String) (items : List Setting)
  | table (origin : Option String) (entries : List (String × Setting))
deriving Inhabited

namespace Setting

def origin : Setting → Option String
  | scalar origin _ => origin
  | array origin _ => origin
  | table origin _ => origin

/-- No value, as stands where nothing has been set. -/
def nothing : Setting := scalar none .nothing

def emptyTable : Setting := table none []

/-- The entries of a table; anything else has none. -/
def entries : Setting → List (String × Setting)
  | table _ entries => entries
  | _ => []

/-- The items of an array; anything else has none. -/
def items : Setting → List Setting
  | array _ items => items
  | _ => []

/-- The value under a key. -/
def get? (setting : Setting) (key : String) : Option Setting :=
  Table.get? (· == ·) key setting.entries

/-- The setting with a value under a key. What is no table gives way to one. -/
def put (setting : Setting) (key : String) (value : Setting) : Setting :=
  match setting with
  | table origin entries => table origin (Table.put (· == ·) key value entries)
  | _ => table none [(key, value)]

mutual

/-- Lays a value over what a table has under a key. -/
def lay (setting : Setting) (key : String) : Setting → Setting
  | table _ entries =>
    let name := Text.lower key
    setting.put name (layAll ((setting.get? name).getD emptyTable) entries)
  | scalar origin value => setting.put (Text.lower key) (scalar origin value)
  | array origin items => setting.put (Text.lower key) (array origin items)
termination_by structural value => value

/-- Lays all entries of a table over a setting. -/
def layAll (setting : Setting) : List (String × Setting) → Setting
  | [] => setting
  | (key, value) :: rest => layAll (lay setting key value) rest
termination_by structural entries => entries

end

mutual

/-- The setting that a value of a file stands for. -/
def ofToml (origin : Option String) : Toml.Value → Setting
  | .string text => scalar origin (.string text)
  | .integer value => scalar origin (.int value)
  | .float value => scalar origin (.float value)
  | .boolean value => scalar origin (.bool value)
  | .moment text => scalar origin (.string text)
  | .array items => array origin (ofItems origin items)
  | .table entries => table origin (ofEntries origin entries)
termination_by structural value => value

def ofItems (origin : Option String) : List Toml.Value → List Setting
  | [] => []
  | item :: items => ofToml origin item :: ofItems origin items
termination_by structural items => items

def ofEntries (origin : Option String) : List (String × Toml.Value) → List (String × Setting)
  | [] => []
  | (key, value) :: entries => (key, ofToml origin value) :: ofEntries origin entries
termination_by structural entries => entries

end

end Setting

end HighlightGrammar

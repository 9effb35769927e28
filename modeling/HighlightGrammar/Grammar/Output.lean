import HighlightGrammar.Encoding.Json
import HighlightGrammar.Encoding.PropertyList
import HighlightGrammar.Grammar.Grammar
import HighlightGrammar.Yaml.Writer

/-! # Writing grammars

A grammar is written as a property list or as JSON for editors, and as YAML for its authors. -/
namespace HighlightGrammar

/-- The formats in which grammars are built. -/
inductive OutputFormat where
  | plist
  | json
deriving DecidableEq, Repr, Inhabited

namespace OutputFormat

/-- A text that names no format. -/
structure UnknownFormat where
  text : String
deriving DecidableEq, Repr

def UnknownFormat.message (error : UnknownFormat) : String :=
  s!"unknown output format '{error.text}' (expected plist or json)"

def name : OutputFormat → String
  | plist => "plist"
  | json => "json"

/-- Reads a format from its name, letter case included. -/
def parse (text : String) : Except UnknownFormat OutputFormat :=
  if text = "plist" then .ok plist
  else if text = "json" then .ok json
  else .error ⟨text⟩

theorem parse_name (format : OutputFormat) : (parse format.name).toOption = some format := by
  cases format <;> rfl

end OutputFormat

/-- Why a grammar has no text in a format. -/
inductive EncodingError where
  | yaml (error : Yaml.WriteError)
  | json (error : Json.KeyError)
  | plist (problem : PropertyList.Problem)
deriving DecidableEq, Repr

def EncodingError.message : EncodingError → String
  | yaml error => error.message
  | json error => error.message
  | plist problem => problem.message

namespace Grammar

def toYaml (grammar : Grammar) : Except EncodingError String :=
  (Yaml.write grammar.toTree).mapError .yaml

def toJson (grammar : Grammar) : Except EncodingError String :=
  (Json.write grammar.toTree).mapError .json

def toPropertyList (grammar : Grammar) : Except EncodingError String :=
  ((PropertyList.ofTree grammar.toTree).map PropertyList.write).mapError .plist

/-- The text of a grammar in a format. -/
def encode (grammar : Grammar) : OutputFormat → Except EncodingError String
  | .plist => grammar.toPropertyList
  | .json => grammar.toJson

end Grammar

end HighlightGrammar

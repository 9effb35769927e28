import HighlightGrammar.Settings.Basic
import HighlightGrammar.Settings.Value
import HighlightGrammar.Text.Visible

/-! # Reading settings

The layered table is read as the settings of a project. Where a text is wanted, truth values and
numbers are taken for their text. A group of settings may also be written as an array, which gives
them in order. -/
namespace HighlightGrammar

/-- What kind of value was found. -/
def Setting.shape : Setting → String
  | .array _ _ => "sequence"
  | .table _ _ => "map"
  | .scalar _ _ => "unit value"

/-- A step to a setting in the table of all settings. -/
inductive SettingStep where
  | key (name : String)
  | item (index : Nat)
deriving DecidableEq, Repr

/-- How the place of a setting is shown. A dot stands behind a key, unless nothing follows it or
what follows begins with a bracket. -/
def SettingStep.placeText : List SettingStep → String
  | [] => ""
  | .item index :: rest => s!"[{index}]" ++ SettingStep.placeText rest
  | .key name :: rest =>
    let inner := SettingStep.placeText rest
    match inner.toList with
    | [] => name
    | '[' :: _ => name ++ inner
    | _ => name ++ "." ++ inner

/-- Why there are no settings. -/
inductive SettingsError where
  /-- A file that is not TOML. -/
  | notToml
  /-- A text that is no path to a setting. -/
  | badPath
  /-- A file that is needed and not there. -/
  | missingFile (name : String)
  /-- A file that is needed and cannot be read. -/
  | unreadable (error : StorageError)
  /-- A setting at a place that has no text. -/
  | notText (found : String) (place : List SettingStep) (origin : Option String)
  /-- A group of settings, or the variables, that is neither table nor, for a group, array. -/
  | badGroup (found expected : String)
  /-- A group that is missing one of its settings. -/
  | missingField (name : String)
  /-- An array that is too short for its group. -/
  | shortArray (length : Nat) (group : String) (fields : Nat)
  | unknownFormat (name : String)
  /-- A format that is neither a text nor one key. -/
  | badFormat
deriving DecidableEq, Repr

namespace SettingsError

def message : SettingsError → String
  | notToml => "<toml>"
  | badPath => "<path>"
  | missingFile name => s!"configuration file \"{name}\" not found"
  | unreadable error => error.message
  | notText found place origin =>
    let file := match origin with
      | some file => s!" in {file}"
      | none => ""
    s!"invalid type: {found}, expected a string for key `{SettingStep.placeText place}`{file}"
  | badGroup found expected => s!"invalid type: {found}, expected {expected}"
  | missingField name => s!"missing field `{name}`"
  | shortArray length group fields =>
    let unit := if fields = 1 then "element" else "elements"
    s!"invalid length {length}, expected struct {group} with {fields} {unit}"
  | unknownFormat name => s!"enum OutputFormat does not have variant constructor {name}"
  | badFormat =>
    "value of enum OutputFormat should be represented by either string or table " ++
      "with exactly one key"

/-- The fault of a setting as seen from what it lies in. -/
def inside (step : SettingStep) : SettingsError → SettingsError
  | notText found place origin => notText found (step :: place) origin
  | error => error

end SettingsError

namespace Setting

open Decimal

/-- Numbers in place of texts are written positionally, whole ones without a point. -/
def layout : Layout where
  positional := fun _ => true
  pointZero := false
  signedExponent := false
  tie := .awayFromZero
  nan := "NaN"
  infinity := "inf"

/-- How a value is spoken of. -/
def described : Setting → String
  | scalar _ .nothing => "unit value"
  | scalar _ (.bool value) => s!"boolean `{value}`"
  | scalar _ (.int value) => s!"integer `{value}`"
  | scalar _ (.float value) =>
    s!"floating point `{Layout.render { layout with pointZero := true } value}`"
  | scalar _ (.string text) => "string " ++ Text.quoted text
  | array _ _ => "sequence"
  | table _ _ => "map"

/-- The text of a setting. -/
def text : Setting → Except SettingsError String
  | scalar _ (.string text) => .ok text
  | scalar _ (.bool value) => .ok (if value then "true" else "false")
  | scalar _ (.int value) => .ok (toString value)
  | scalar _ (.float value) => .ok (layout.render value)
  | setting => .error (.notText setting.shape [] setting.origin)

/-- The path that a setting names. -/
def path (setting : Setting) : Except SettingsError Path := setting.text.map Path.mk

/-- A group of settings. -/
structure Group where
  /-- The setting of the field of this name at this position, and how it is reached. -/
  field? : (name : String) → (position : Nat) → Option (SettingStep × Setting)
  /-- What to report where a field is missing. -/
  missing : (name : String) → (position : Nat) → SettingsError

/-- The group of settings that a setting holds. -/
def group (name : String) (fieldCount : Nat) : Setting → Except SettingsError Group
  | table _ entries => .ok {
      field? := fun name _ =>
        (Table.get? (· == ·) name entries).map fun setting => (.key name, setting)
      missing := fun name _ => .missingField name }
  | array _ items => .ok {
      field? := fun _ position => items[position]?.map fun setting => (.item position, setting)
      missing := fun _ position => .shortArray position name fieldCount }
  | setting => .error (.badGroup setting.described s!"struct {name}")

/-- A field that a group may have. -/
def Group.optional {α : Type} (group : Group) (name : String) (position : Nat)
    (read : Setting → Except SettingsError α) : Except SettingsError (Option α) :=
  match group.field? name position with
  | some (step, setting) => (read setting).map some |>.mapError (SettingsError.inside step)
  | none => .ok none

/-- A field that a group has to have. -/
def Group.field {α : Type} (group : Group) (name : String) (position : Nat)
    (read : Setting → Except SettingsError α) : Except SettingsError α := do
  match ← group.optional name position read with
  | some value => return value
  | none => throw (group.missing name position)

/-- The format of a name, letter case aside. -/
def formatNamed (name : String) : Except SettingsError OutputFormat :=
  match OutputFormat.parse (Text.lower name) with
  | .ok format => .ok format
  | .error _ => .error (.unknownFormat name)

/-- The output format that a setting names, as a text or as the only key of a table. -/
def format : Setting → Except SettingsError OutputFormat
  | scalar _ (.string text) => formatNamed text
  | table _ [(name, _)] => formatNamed name
  | _ => .error .badFormat

/-- The variables of a table. -/
def variableTable : Setting → Except SettingsError VariableTable
  | table _ entries => do
    let texts ← entries.mapM fun (name, setting) => do
      return (name, ← setting.text.mapError (SettingsError.inside (.key name)))
    return VariableTable.ofList texts
  | setting => .error (.badGroup setting.described "a map")

def grammarSettings (setting : Setting) : Except SettingsError GrammarSettings := do
  let group ← setting.group "GrammarSettings" 3
  let source ← group.field "source" 0 path
  let output ← group.field "output" 1 path
  let overrides ← group.optional "variables" 2 variableTable
  return { source, output, overrides := overrides.getD .empty }

def buildSettings (setting : Setting) : Except SettingsError (Path × OutputFormat) := do
  let group ← setting.group "BuildSettings" 2
  return (← group.field "output_dir" 0 path, ← group.field "format" 1 format)

def baselineSettings (setting : Setting) : Except SettingsError BaselineSettings := do
  let group ← setting.group "BaselineSettings" 3
  return ⟨← group.field "cases" 0 path, ← group.field "baselines" 1 path,
    ← group.field "generated" 2 path⟩

/-- The settings that a table holds. -/
def settings (root : Setting) : Except SettingsError Settings := do
  let root ← root.group "Settings" 4
  let level ← root.field "logging" 0 fun setting => do
    (← setting.group "LoggingSettings" 1).field "level" 0 text
  let (outputFolder, format) ← root.field "build" 1 buildSettings
  let (source, form) ← root.field "grammars" 2 fun setting => do
    let group ← setting.group "GrammarsSettings" 2
    return (← group.field "source" 0 grammarSettings, ← group.field "form" 1 grammarSettings)
  let baselines ← root.field "baselines" 3 baselineSettings
  return { level, outputFolder, format, source, form, baselines }

end Setting

end HighlightGrammar

import HighlightGrammar.Settings.KeyPath
import HighlightGrammar.Settings.Reading
import HighlightGrammar.Toml.Reader

/-! # Layers of settings

The settings of a project are laid over the defaults: first its files in order, then single settings
that are given elsewhere. -/
namespace HighlightGrammar

/-- A file of settings. -/
structure SettingsFile where
  path : Path
  /-- Whether the file has to be there. -/
  required : Bool
deriving DecidableEq, Repr

/-- The layers over the defaults. -/
structure SettingsLayers where
  files : List SettingsFile
  overrides : List (KeyPath × Setting)

namespace SettingsLayers

/-- The defaults alone. -/
def defaults : SettingsLayers := ⟨[], []⟩

/-- A file that has to be there. -/
def withFile (layers : SettingsLayers) (path : Path) : SettingsLayers :=
  { layers with files := layers.files ++ [⟨path, true⟩] }

/-- A file that counts if it is there. -/
def withOptionalFile (layers : SettingsLayers) (path : Path) : SettingsLayers :=
  { layers with files := layers.files ++ [⟨path, false⟩] }

/-- A setting in place of what the files say. -/
def withOverride (layers : SettingsLayers) (key : String) (value : Setting) :
    Except SettingsError SettingsLayers :=
  match KeyPath.parse? key with
  | some path =>
    .ok { layers with overrides := Table.put (· == ·) path value layers.overrides }
  | none => .error .badPath

/-- The settings of a project that sets nothing. -/
def defaultRoot : Setting :=
  let text (value : String) : Setting := .scalar none (.string value)
  let table (entries : List (String × Setting)) : Setting := .table none entries
  table
    [("logging", table [("level", text "info")]),
      ("build", table [("output_dir", text "."), ("format", text "plist")]),
      ("grammars", table
        [("source", table
            [("source", text "4GL.YAML-tmLanguage"), ("output", text "4GL.tmLanguage")]),
          ("form", table
            [("source", text "PER.YAML-tmLanguage"), ("output", text "PER.tmLanguage")])]),
      ("baselines", table
        [("cases", text "tests/cases"), ("baselines", text "tests/baselines"),
          ("generated", text "tests/generated")])]

/-- The path with an extension behind its file name. -/
def withExtension (path : Path) : Option Path :=
  match path.fileName? with
  | some name => some ((path.parent?.getD ⟨""⟩).join ⟨name ++ ".toml"⟩)
  | none => none

/-- The segments of a path without those that add nothing. -/
def originOf (path : Path) : String :=
  let segments := (Path.splitSlash path.text.toList).filter fun s => !Path.idle s
  String.ofList (Path.joinSlash segments)

section Loading

variable {m : Type → Type} [Monad m] [Storage m]

/-- The file that a path of the settings means: the one of this name, or else the one with the
extension. -/
def locate (path : Path) : m (Option Path) := do
  if ← Storage.isFile path then return some path
  else match withExtension path with
    | some path => if ← Storage.isFile path then return some path else return none
    | none => return none

/-- The text of a file with its origin. A file that need not be there may as well be unreadable. -/
def readFile (file : SettingsFile) : ExceptT SettingsError m (Option (String × String)) := do
  match ← ExceptT.lift (locate file.path) with
  | none => if file.required then throw (.missingFile file.path.text) else return none
  | some path =>
    match ← ExceptT.lift (Storage.readText path : ExceptT StorageError m String).run with
    | .ok text => return some (originOf path, text)
    | .error error => if file.required then throw (.unreadable error) else return none

/-- Lays a file over a table. -/
def layFile (root : Setting) (file : SettingsFile) : ExceptT SettingsError m Setting := do
  match ← readFile file with
  | none => return root
  | some (origin, text) =>
    match Toml.read? text with
    | some entries => return root.layFile (Setting.ofEntries (some origin) entries)
    | none => throw .notToml

/-- The settings of all layers. -/
def load (layers : SettingsLayers) : ExceptT SettingsError m Settings := do
  let root ← layers.files.foldlM layFile defaultRoot
  let root := layers.overrides.foldl (fun root (path, value) => path.set value root) root
  ExceptT.mk (pure root.settings)

end Loading

end SettingsLayers

end HighlightGrammar

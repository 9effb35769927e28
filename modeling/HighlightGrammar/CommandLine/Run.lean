import HighlightGrammar.Build
import HighlightGrammar.CommandLine.Help
import HighlightGrammar.Settings.Layers
import HighlightGrammar.Text.Blank

/-! # Running commands

A command prints what it has found and tells by its exit code whether all went well. Faults go to
the second output. The settings are those of the named file, or of the usual one if that is there. -/
namespace HighlightGrammar.CommandLine

/-- What a run leaves behind. -/
structure Outcome where
  code : Nat
  /-- What is printed. -/
  output : String
  /-- What is printed of faults. -/
  errors : String
deriving DecidableEq, Repr

namespace Outcome

/-- A run that goes well so far. -/
def start : Outcome := ⟨0, "", ""⟩

def print (outcome : Outcome) (line : String) : Outcome :=
  { outcome with output := outcome.output ++ line ++ "\n" }

/-- A line about a fault, with which the run fails. -/
def fail (outcome : Outcome) (line : String) : Outcome :=
  { outcome with code := 1, errors := outcome.errors ++ line ++ "\n" }

end Outcome

def versionText : String := "fglg 0.1.0\n"

/-- The file of settings that is read where none is named. -/
def defaultConfig : Path := ⟨"fglg.toml"⟩

/-- The files of settings of a command. -/
def configLayers (config : Option String) : SettingsLayers :=
  match config with
  | some path => SettingsLayers.defaults.withFile ⟨path⟩
  | none => SettingsLayers.defaults.withOptionalFile defaultConfig

/-- Layers with a setting that an option has given. -/
def withOption (key : String) (value : Option String) (layers : SettingsLayers) :
    Except SettingsError SettingsLayers :=
  match value with
  | some text => layers.withOverride key (.scalar none (.string text))
  | none => .ok layers

/-- The layers of settings of a command. -/
def layersOf : Command → Except SettingsError SettingsLayers
  | .build config format outputFolder => do
    withOption "build.output_dir" outputFolder
      (← withOption "build.format" format (configLayers config))
  | .resolve _ config _ _ => .ok (configLayers config)
  | .check config _ => .ok (configLayers config)

/-- What is printed of a kind that has been built. -/
def reportBuild (outcome : Outcome) (build : BuildOutcome) : Outcome :=
  match build.result with
  | .ok built =>
    let outcome := outcome.print s!"{build.kind}: wrote {built.output}"
    if built.unresolved.isEmpty then outcome
    else outcome.print s!"{build.kind}: {built.unresolved.length} placeholder(s) left unresolved"
  | .error error => outcome.fail s!"{build.kind}: {error.message}"

/-- How a placeholder is listed. -/
def placeholderLine (kind : Kind) (placeholder : UnresolvedPlaceholder) : String :=
  s!"{kind}: {placeholder.path} {placeholder.field.key}: " ++
    String.ofList (Placeholder.write placeholder.name.toList)

/-- What is printed of a kind that has been checked. -/
def reportCheck (outcome : Outcome) (kind : Kind) (loaded : Except GrammarError Grammar) :
    Outcome :=
  match loaded with
  | .ok grammar =>
    if grammar.unresolved.isEmpty then outcome.print s!"{kind}: all placeholders resolved"
    else grammar.unresolved.foldl (fun outcome p => outcome.print (placeholderLine kind p)) outcome
  | .error error => outcome.fail s!"{kind}: {error.message}"

/-- The text of a grammar that is printed: without white space at its end. -/
def printedText (grammar : Grammar) (asJson : Bool) : Except GrammarError String :=
  ((if asJson then grammar.toJson else grammar.toYaml).map Text.trimEnd).mapError .encoding

/-- The loader with the overrides of a named kind. -/
def loaderFor (settings : Settings) : Option String → Except Kind.UnknownKind GrammarLoader
  | some name => do return (settings.grammar (← Kind.parse name)).loader
  | none => .ok .plain

section Running

variable {m : Type → Type} [Monad m] [Storage m] [MatcherEngine]

def runBuild (settings : Settings) : m Outcome := do
  return (← settings.buildGrammars).foldl reportBuild .start

def runResolve (settings : Settings) (path : String) (kind : Option String) (asJson : Bool) :
    m Outcome := do
  match loaderFor settings kind with
  | .error error => return Outcome.start.fail error.message
  | .ok loader =>
    let loaded ← (loader.loadFile ⟨path⟩).run
    match loaded.bind fun grammar => printedText grammar asJson with
    | .ok text => return Outcome.start.print text
    | .error error => return Outcome.start.fail error.message

/-- Checks both kinds. A placeholder that is left is a fault only if that has been asked for. -/
def runCheck (settings : Settings) (denyUnresolved : Bool) : m Outcome := do
  let loaded ← Kind.all.mapM fun kind => do
    return (kind, ← (settings.loadGrammar kind : ExceptT GrammarError m Grammar).run)
  let outcome := loaded.foldl (fun outcome (kind, grammar) => reportCheck outcome kind grammar)
    Outcome.start
  let left := loaded.any fun (_, grammar) =>
    match grammar with
    | .ok grammar => !grammar.unresolved.isEmpty
    | .error _ => false
  return if denyUnresolved && left then { outcome with code := 1 } else outcome

/-- Runs a command with the settings of its layers. -/
def runCommand (command : Command) : m Outcome := do
  let settings ← (do
    let layers ← ExceptT.mk (pure (layersOf command))
    layers.load : ExceptT SettingsError m Settings).run
  match settings with
  | .error error => return Outcome.start.fail s!"Configuration error: {error.message}"
  | .ok settings =>
    match command with
    | .build _ _ _ => runBuild settings
    | .resolve path _ kind asJson => runResolve settings path kind asJson
    | .check _ denyUnresolved => runCheck settings denyUnresolved

/-- Runs the command that words make. -/
def run (words : List String) : m Outcome :=
  match parse words with
  | .ok command => runCommand command
  | .error .usage => pure ⟨2, "", Topic.program.page⟩
  | .error (.help topic) => pure ⟨0, topic.page, ""⟩
  | .error .version => pure ⟨0, versionText, ""⟩

end Running

end HighlightGrammar.CommandLine

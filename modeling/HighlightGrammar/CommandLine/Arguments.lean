/-! # Arguments of the command line

The words behind the program's name are a command with its options. An option has a long name behind
two dashes and may have a letter behind one; several letters may share a dash. A value follows its
option as the next word, behind an equals sign, or directly behind the letter. No option is given
twice, and a word that begins with a dash is no value. The words are read in order, and the first
that makes no sense or asks for something else decides. -/
namespace HighlightGrammar.CommandLine

/-- What a user wants done. -/
inductive Command where
  /-- Build both grammars. -/
  | build (config format outputFolder : Option String)
  /-- Print a resolved grammar. -/
  | resolve (path : String) (config kind : Option String) (asJson : Bool)
  /-- List the placeholders that are left. -/
  | check (config : Option String) (denyUnresolved : Bool)
deriving DecidableEq, Repr

/-- What help can be asked about. -/
inductive Topic where
  | program
  | build
  | resolve
  | check
  | help
deriving DecidableEq, Repr

/-- Why there is no command. -/
inductive Interrupt where
  /-- Words that make no command. -/
  | usage
  | help (topic : Topic)
  | version
deriving DecidableEq, Repr

/-- What an option does. -/
inductive OptionRole where
  | flag
  /-- It has a value, one of these if there is a list. The standard one holds without the option. -/
  | valued (allowed : Option (List String)) (standard : Option String)
  | interrupts (cause : Interrupt)
deriving DecidableEq, Repr

/-- An option of a command. -/
structure OptionSpec where
  name : String
  letter : Option Char
  role : OptionRole
  /-- What it does, in words. -/
  about : String
deriving DecidableEq, Repr

/-- The words of a command that have been read. -/
structure Words where
  flags : List String
  values : List (String × String)
  positionals : List String
deriving DecidableEq, Repr

namespace Words

def empty : Words := ⟨[], [], []⟩

def value? (words : Words) (name : String) : Option String :=
  (words.values.find? fun e => e.1 == name).map Prod.snd

def hasFlag (words : Words) (name : String) : Bool := words.flags.contains name

/-- Adds a flag. -/
def addFlag (words : Words) (name : String) : Except Interrupt Words :=
  if words.hasFlag name then .error .usage else .ok { words with flags := name :: words.flags }

/-- Adds an option with its value. -/
def addValue (words : Words) (name : String) (allowed : Option (List String)) (value : String) :
    Except Interrupt Words :=
  if (words.value? name).isSome || allowed.any fun values => !values.contains value then
    .error .usage
  else .ok { words with values := (name, value) :: words.values }

/-- Adds a word that belongs to no option, of which there may be `most`. -/
def addPositional (most : Nat) (words : Words) (word : String) : Except Interrupt Words :=
  if words.positionals.length < most then
    .ok { words with positionals := words.positionals ++ [word] }
  else .error .usage

end Words

/-- An option that waits for its value. -/
structure Waiting where
  name : String
  allowed : Option (List String)

/-- What follows the letters of a word. -/
abbrev Step := Words × Option Waiting

/-- Whether a word can be the value of an option before it. -/
def isValue (word : String) : Bool := word == "-" || word.toList.head? != some '-'

/-- Reads the letters of a word behind its dash. -/
def readLetters (specs : List OptionSpec) (words : Words) : List Char → Except Interrupt Step
  | [] => .ok (words, none)
  | c :: rest =>
    match specs.find? fun spec => spec.letter == some c with
    | none => .error .usage
    | some spec =>
      match spec.role with
      | .interrupts cause => .error cause
      | .flag => do readLetters specs (← words.addFlag spec.name) rest
      | .valued allowed _ =>
        match rest with
        | [] => .ok (words, some ⟨spec.name, allowed⟩)
        | '=' :: value => do
          return (← words.addValue spec.name allowed (String.ofList value), none)
        | value => do
          return (← words.addValue spec.name allowed (String.ofList value), none)

/-- Reads a long name behind its dashes, with a value if there is an equals sign. -/
def readLong (specs : List OptionSpec) (words : Words) (text : List Char) : Except Interrupt Step :=
  let (name, rest) := text.span (· != '=')
  match specs.find? fun spec => spec.name.toList == name with
  | none => .error .usage
  | some spec =>
    match spec.role, rest with
    | .interrupts cause, [] => .error cause
    | .flag, [] => do return (← words.addFlag spec.name, none)
    | .valued allowed _, [] => .ok (words, some ⟨spec.name, allowed⟩)
    | .valued allowed _, _ :: value => do
      return (← words.addValue spec.name allowed (String.ofList value), none)
    | _, _ => .error .usage

/-- Reads a word that begins with a dash. -/
def readDashed (specs : List OptionSpec) (words : Words) (word : String) : Except Interrupt Step :=
  match word.toList with
  | '-' :: '-' :: name => readLong specs words name
  | '-' :: letters => readLetters specs words letters
  | _ => .error .usage

/-- Reads all words of a command, of which `most` belong to no option. Behind two dashes that stand
alone nothing is an option. -/
def readWords (specs : List OptionSpec) (most : Nat) :
    Step → List String → Except Interrupt Words
  | (words, none), [] => .ok words
  | (_, some _), [] => .error .usage
  | (words, some waiting), word :: rest =>
    if isValue word then do
      readWords specs most (← words.addValue waiting.name waiting.allowed word, none) rest
    else .error .usage
  | (words, none), word :: rest =>
    if word = "--" then rest.foldlM (Words.addPositional most) words
    else if isValue word then do readWords specs most (← words.addPositional most word, none) rest
    else do readWords specs most (← readDashed specs words word) rest

def configOption : OptionSpec where
  name := "config"
  letter := some 'c'
  role := .valued none none
  about := "Configuration file layered over the defaults (default: ./fglg.toml if present)"

def verboseOption : OptionSpec := ⟨"verbose", some 'v', .flag, "Log debug output"⟩

def formatOption (allowed : List String) (standard : Option String) : OptionSpec :=
  ⟨"format", some 'f', .valued (some allowed) standard, "Output format"⟩

def outputFolderOption : OptionSpec :=
  ⟨"output-dir", some 'o', .valued none none, "Directory the grammars are written to"⟩

def kindOption : OptionSpec where
  name := "kind"
  letter := some 'k'
  role := .valued none none
  about := "Apply the configured variable overrides of this grammar (source or form)"

def denyOption : OptionSpec :=
  ⟨"deny-unresolved", none, .flag, "Exit with an error if any placeholder is unresolved"⟩

def helpOption (topic : Topic) : OptionSpec :=
  ⟨"help", some 'h', .interrupts (.help topic), "Print help"⟩

def versionOption : OptionSpec := ⟨"version", some 'V', .interrupts .version, "Print version"⟩

/-- The options that may follow the name of a command, or come in front of all commands. -/
def Topic.options : Topic → List OptionSpec
  | program => [verboseOption, helpOption .program, versionOption]
  | build =>
    [configOption, verboseOption, formatOption ["plist", "json"] none, outputFolderOption,
      helpOption .build]
  | resolve =>
    [configOption, verboseOption, kindOption, formatOption ["yaml", "json"] (some "yaml"),
      helpOption .resolve]
  | check => [configOption, verboseOption, denyOption, helpOption .check]
  | help => []

/-- The commands that have names. -/
def namedTopics : List (String × Topic) :=
  [("build", .build), ("resolve", .resolve), ("check", .check), ("help", .help)]

/-- The topic that a name stands for. -/
def topic? (name : String) : Option Topic :=
  (namedTopics.find? fun named => named.1 == name).map Prod.snd

/-- What comes of asking for help, on everything or on one of the commands. -/
def helpFor : List String → Interrupt
  | [] => .help .program
  | [name] => ((topic? name).map Interrupt.help).getD .usage
  | _ => .usage

/-- The command of a topic with its words. -/
def readCommand (topic : Topic) (rest : List String) : Except Interrupt Command :=
  let words (most : Nat) := readWords topic.options most (.empty, none) rest
  match topic with
  | .build => do
    let words ← words 0
    return .build (words.value? "config") (words.value? "format") (words.value? "output-dir")
  | .resolve => do
    let words ← words 1
    match words.positionals with
    | [path] =>
      return .resolve path (words.value? "config") (words.value? "kind")
        (words.value? "format" == some "json")
    | _ => throw .usage
  | .check => do
    let words ← words 0
    return .check (words.value? "config") (words.hasFlag "deny-unresolved")
  | .help => .error (helpFor rest)
  | .program => .error .usage

/-- Reads options up to the name of the command. -/
def readLeading (words : Words) : List String → Except Interrupt Command
  | [] => .error .usage
  | word :: rest =>
    if word = "--" then .error .usage
    else if isValue word then
      match topic? word with
      | some topic => readCommand topic rest
      | none => .error .usage
    else do
      let (words, _) ← readDashed Topic.program.options words word
      readLeading words rest

/-- The command that words make. -/
def parse (words : List String) : Except Interrupt Command := readLeading .empty words

end HighlightGrammar.CommandLine

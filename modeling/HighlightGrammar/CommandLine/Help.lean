import HighlightGrammar.CommandLine.Arguments

/-! # Help

A page of help tells what a command does, how its words are ordered, and what each of them means.
The labels of a section are set to one width. -/
namespace HighlightGrammar.CommandLine

/-- A section of a page: labels with what they stand for. -/
structure HelpSection where
  title : String
  entries : List (String × String)
deriving DecidableEq, Repr

namespace HelpSection

/-- The number of characters of the longest label. -/
def width (part : HelpSection) : Nat :=
  (part.entries.map fun entry => entry.1.length).foldl max 0

/-- The text of a section behind an empty line; a section without entries has none. -/
def text (part : HelpSection) : String :=
  let line (entry : String × String) : String :=
    "  " ++ entry.1.pushn ' ' (part.width - entry.1.length) ++ "  " ++ entry.2 ++ "\n"
  if part.entries.isEmpty then ""
  else "\n" ++ part.title ++ ":\n" ++ String.join (part.entries.map line)

end HelpSection

namespace OptionSpec

/-- The names of an option, and that of its value. -/
def label (spec : OptionSpec) : String :=
  let letter := match spec.letter with
    | some c => String.ofList ['-', c, ',', ' ']
    | none => "    "
  let value := match spec.role with
    | .valued _ _ => " <" ++ spec.name ++ ">"
    | _ => ""
  letter ++ "--" ++ spec.name ++ value

/-- What an option does, with its standard value and the values that it may have. -/
def summary (spec : OptionSpec) : String :=
  match spec.role with
  | .valued allowed standard =>
    let standard := (standard.map fun value => " [default: " ++ value ++ "]").getD ""
    let allowed := (allowed.map fun values =>
      " [possible values: " ++ ", ".intercalate values ++ "]").getD ""
    spec.about ++ standard ++ allowed
  | _ => spec.about

end OptionSpec

namespace Topic

/-- What a command does, in words. -/
def about : Topic → String
  | program => "Build and inspect the 4GL and PER syntax grammars"
  | build => "Resolve both grammars and write them to their output files"
  | resolve => "Print one grammar with its variables resolved"
  | check => "List placeholders the configured grammars leave unresolved"
  | help => "Print this message or the help of the given subcommand(s)"

/-- The order of the words of a command. -/
def usage : Topic → String
  | program => "fglg [OPTIONS] <COMMAND>"
  | build => "fglg build [OPTIONS]"
  | resolve => "fglg resolve [OPTIONS] <path>"
  | check => "fglg check [OPTIONS]"
  | help => "fglg help [COMMAND]..."

/-- The words of a command that belong to no option. -/
def arguments : Topic → List (String × String)
  | resolve => [("<path>", "Path to a YAML grammar")]
  | help => [("[COMMAND]...", "Print help for the subcommand(s)")]
  | _ => []

/-- The commands that a page lists. -/
def commands : Topic → List (String × String)
  | program => namedTopics.map fun named => (named.1, named.2.about)
  | _ => []

/-- The page of help on a topic. -/
def page (topic : Topic) : String :=
  let options := topic.options.map fun spec => (spec.label, spec.summary)
  topic.about ++ "\n\nUsage: " ++ topic.usage ++ "\n" ++
    HelpSection.text ⟨"Commands", topic.commands⟩ ++
    HelpSection.text ⟨"Arguments", topic.arguments⟩ ++
    HelpSection.text ⟨"Options", options⟩

end Topic

end HighlightGrammar.CommandLine

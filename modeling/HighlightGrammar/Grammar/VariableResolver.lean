import HighlightGrammar.Grammar.Placeholder
import HighlightGrammar.Grammar.VariableTable
import HighlightGrammar.Text.Folding

/-! # Resolving variables

A resolver replaces the placeholders of its variables, one variable after the other in the order of
declaration. Each variable makes one pass over the text that the earlier ones have left: its
placeholders are replaced from left to right, letter case aside, and a replacement is not looked at
again in that pass. Before a variable is recorded its own text is expanded by the variables recorded
so far, so a variable may embed every variable declared before it. Placeholders are looked for by
matchers, and an engine that makes no matcher for a name refuses the variable. -/
namespace HighlightGrammar

/-- What makes the matchers of placeholders. It may refuse a name, such as one that is too long for
it, but a matcher finds what `startsWithPlaceholder` describes whichever engine has made it. -/
class MatcherEngine where
  /-- Makes the matcher of a name, or tells why there is none. -/
  compile : String → Except String Unit

/-- The engine that refuses no name. -/
@[reducible] def MatcherEngine.unlimited : MatcherEngine := ⟨fun _ => .ok ()⟩

/-- A recorded variable: the name of its placeholder and the text that replaces it. -/
structure Replacer where
  name : List Char
  replacement : List Char
deriving DecidableEq, Repr

/-- The rest of a text behind the characters of a name, letter case aside. -/
def afterName? : List Char → List Char → Option (List Char)
  | [], text => some text
  | n :: name, c :: text => if Text.sameFold n c then afterName? name text else none
  | _ :: _, [] => none

/-- Whether a text starts with the placeholder of a name, letter case aside. -/
def startsWithPlaceholder (name : List Char) : List Char → Bool
  | '{' :: '{' :: rest =>
    match afterName? name rest with
    | some ('}' :: '}' :: _) => true
    | _ => false
  | _ => false

namespace Replacer

/-- Replaces the placeholders of a variable; the first `skip` characters belong to one that has
been replaced. -/
def replaceFrom (replacer : Replacer) : Nat → List Char → List Char
  | _, [] => []
  | skip + 1, _ :: rest => replacer.replaceFrom skip rest
  | 0, c :: rest =>
    if startsWithPlaceholder replacer.name (c :: rest) then
      replacer.replacement ++ replacer.replaceFrom (replacer.name.length + 3) rest
    else c :: replacer.replaceFrom 0 rest

/-- One pass over a text. -/
def replace (replacer : Replacer) (text : List Char) : List Char := replacer.replaceFrom 0 text

end Replacer

/-- A variable whose name the engine refuses. -/
structure InvalidVariable where
  name : String
  reason : String
deriving DecidableEq, Repr

def InvalidVariable.message (error : InvalidVariable) : String :=
  s!"invalid variable '{error.name}': {error.reason}"

/-- The recorded variables, in order of declaration. -/
structure VariableResolver where
  replacers : List Replacer
deriving DecidableEq, Repr

namespace VariableResolver

def empty : VariableResolver := ⟨[]⟩

/-- Applies every recorded variable in order. -/
def expandChars (resolver : VariableResolver) (text : List Char) : List Char :=
  resolver.replacers.foldl (fun text replacer => replacer.replace text) text

/-- Applies every recorded variable in order. -/
def expand (resolver : VariableResolver) (text : String) : String :=
  String.ofList (resolver.expandChars text.toList)

/-- Records a variable, its text expanded by those recorded before it. -/
def record (resolver : VariableResolver) (name text : String) : VariableResolver :=
  ⟨resolver.replacers ++ [⟨name.toList, resolver.expandChars text.toList⟩]⟩

section

variable [MatcherEngine]

/-- A name that the engine refuses makes its variable invalid. -/
def checkName (name : String) : Except InvalidVariable Unit :=
  (MatcherEngine.compile name).mapError (InvalidVariable.mk name)

/-- Records the variables of a table in order of declaration. -/
def ofTable (table : VariableTable) : Except InvalidVariable VariableResolver :=
  table.entries.foldlM (fun resolver (name, text) => do
    checkName name
    return resolver.record name text) empty

end

/-- The recorded text of a variable, the name spelled exactly. -/
def resolved? (resolver : VariableResolver) (name : String) : Option String :=
  (resolver.replacers.find? fun r => r.name == name.toList).map fun r => String.ofList r.replacement

/-- The number of recorded variables. -/
def size (resolver : VariableResolver) : Nat := resolver.replacers.length

end VariableResolver

end HighlightGrammar

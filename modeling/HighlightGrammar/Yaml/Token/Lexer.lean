import HighlightGrammar.Yaml.Text.Block
import HighlightGrammar.Yaml.Text.Plain
import HighlightGrammar.Yaml.Text.Quoted
import HighlightGrammar.Yaml.Token

/-! # Reading tokens

The lexer goes through a text once. It keeps the columns of the block collections that are open, and
for every bracket that is open the place where a key may have begun: only the colon behind it tells
that a node was a key, and then the tokens in front of it are added at that place. Such a key takes
one line and at most 1024 bytes. -/
namespace HighlightGrammar.Yaml

/-- A place where a key may have begun. -/
structure PossibleKey where
  /-- Whether nothing but a key can stand there. -/
  required : Bool
  /-- The number of tokens in front of it. -/
  position : Nat
  index : Nat
  line : Nat
  column : Nat
deriving DecidableEq, Repr

/-- The state of reading tokens. -/
structure Lexer where
  /-- The text that has not been read. -/
  rest : List Char
  index : Nat
  line : Nat
  column : Nat
  /-- The tokens that have been read, the last one first. -/
  tokens : List Token
  /-- The columns of the open collections in block style, the innermost one first. -/
  columns : List Nat
  /-- The key that may have begun since the innermost open bracket. -/
  possibleKey : Option PossibleKey
  /-- The keys that may have begun outside of it, one for every open bracket. -/
  outerKeys : List (Option PossibleKey)
  /-- Whether a key may begin here. -/
  keyAllowed : Bool
deriving Repr

namespace Lexer

def start (text : List Char) : Lexer := ⟨text, 0, 0, 0, [], [], none, [], true⟩

/-- Whether a bracket is open. -/
def inFlow (lexer : Lexer) : Bool := !lexer.outerKeys.isEmpty

/-- The column of the innermost open collection, one in front of the text if there is none. -/
def indent (lexer : Lexer) : Int := (lexer.columns.head?.map fun column => (column : Int)).getD (-1)

/-- Moves behind characters that have been read. -/
def pass (lexer : Lexer) (c : Char) : Lexer :=
  let lexer := { lexer with rest := lexer.rest.drop 1, index := lexer.index + c.utf8Size }
  if isBreak c then { lexer with line := lexer.line + 1, column := 0 }
  else { lexer with column := lexer.column + 1 }

/-- Moves to the place where only `rest` has not been read. -/
def moveTo (lexer : Lexer) (rest : List Char) : Lexer :=
  (lexer.rest.take (lexer.rest.length - rest.length)).foldl pass lexer

def push (lexer : Lexer) (token : Token) : Lexer := { lexer with tokens := token :: lexer.tokens }

/-- Adds a token that has been read up to `rest`. -/
def pushTo (lexer : Lexer) (token : Token) (rest : List Char) : Lexer :=
  (lexer.push token).moveTo rest

/-- Adds a token of so many characters. -/
def pushNext (lexer : Lexer) (width : Nat) (token : Token) : Lexer :=
  (lexer.rest.take width).foldl pass (lexer.push token)

/-- Adds a token behind the first `position` ones. -/
def insertAt (lexer : Lexer) (position : Nat) (token : Token) : Lexer :=
  let later := lexer.tokens.length - position
  { lexer with tokens := lexer.tokens.take later ++ token :: lexer.tokens.drop later }

/-- Closes the collections in block style whose column is beyond the given one. -/
def closeBeyond (lexer : Lexer) (column : Int) : Lexer :=
  if lexer.inFlow then lexer
  else
    let (closed, columns) := lexer.columns.span fun (c : Nat) => column < (c : Int)
    { lexer with tokens := closed.map (fun _ => Token.blockEnd) ++ lexer.tokens, columns }

/-- Opens a collection in block style at a column, behind the first `position` tokens, unless it is
open. -/
def openAt (lexer : Lexer) (column position : Nat) (token : Token) : Lexer :=
  if lexer.inFlow || (column : Int) ≤ lexer.indent then lexer
  else { lexer.insertAt position token with columns := column :: lexer.columns }

/-- Opens a collection in block style here, where a key has to be allowed. -/
def openHere (lexer : Lexer) (token : Token) : Option Lexer :=
  if lexer.inFlow then some lexer
  else if lexer.keyAllowed then some (lexer.openAt lexer.column lexer.tokens.length token)
  else none

/-- Gives up the key that may have begun; one that had to be a key may not be given up. -/
def dropKey (lexer : Lexer) : Option Lexer :=
  if lexer.possibleKey.any (·.required) then none else some { lexer with possibleKey := none }

/-- Notes that a key may begin here. -/
def noteKey (lexer : Lexer) : Option Lexer :=
  if lexer.keyAllowed then do
    let required := !lexer.inFlow && lexer.indent == (lexer.column : Int)
    let lexer ← lexer.dropKey
    return { lexer with
      possibleKey :=
        some ⟨required, lexer.tokens.length, lexer.index, lexer.line, lexer.column⟩ }
  else some lexer

/-- Whether a key that began there can no longer be one. -/
def hasExpired (lexer : Lexer) (key : PossibleKey) : Bool :=
  key.line < lexer.line || key.index + 1024 < lexer.index

/-- Gives up the keys that can no longer be keys. -/
def expireKeys (lexer : Lexer) : Option Lexer :=
  let keys := lexer.possibleKey :: lexer.outerKeys
  if keys.any fun key? => key?.any fun key => key.required && lexer.hasExpired key then none
  else
    let expire (key? : Option PossibleKey) := key?.filter fun key => !lexer.hasExpired key
    some { lexer with
      possibleKey := expire lexer.possibleKey
      outerKeys := lexer.outerKeys.map expire }

/-- Where one stands between two tokens. -/
inductive Between where
  | lineStart
  | blank
  | comment
deriving DecidableEq, Repr

/-- Passes blanks, comments and line breaks. A tabulator is a blank only where it cannot be taken
for the start of a line; a mark of the byte order may stand at the start of a line. -/
def passGap (lexer : Lexer) : Between → List Char → Lexer
  | _, [] => lexer
  | place, c :: rest =>
    if isBreak c then
      let lexer := lexer.pass c
      passGap { lexer with keyAllowed := lexer.keyAllowed || !lexer.inFlow } .lineStart rest
    else if place = .comment then passGap (lexer.pass c) .comment rest
    else if place = .lineStart ∧ c.toNat = 0xFEFF then passGap (lexer.pass c) .blank rest
    else if c = ' ' ∨ (c = '\t' ∧ (lexer.inFlow || !lexer.keyAllowed)) then
      passGap (lexer.pass c) .blank rest
    else if c = '#' then passGap (lexer.pass c) .comment rest
    else lexer

/-- Passes everything up to the next token. -/
def toToken (lexer : Lexer) : Lexer :=
  lexer.passGap (if lexer.column = 0 then .lineStart else .blank) lexer.rest

/-- Reads a number of at most nine digits. -/
def readNumber (text : List Char) : Option (Nat × List Char) :=
  let (digits, rest) := text.span Char.isDigit
  if digits.isEmpty || digits.length > 9 then none
  else some (digits.foldl (fun n c => n * 10 + (c.toNat - 48)) 0, rest)

/-- Reads what a directive says. -/
def readDirective (text : List Char) : Option (Token × List Char) := do
  let (name, rest) := text.span isWordChar
  if !atBlankOrEnd rest then none
  else if name == "YAML".toList then
    let (major, rest) ← readNumber (rest.dropWhile isBlank)
    match rest with
    | '.' :: rest =>
      let (minor, rest) ← readNumber rest
      return (.version major minor, rest)
    | _ => none
  else if name == "TAG".toList then
    let (handle, rest) ← readHandle (rest.dropWhile isBlank)
    if handle ≠ ['!'] ∧ !isClosedHandle handle then none
    else if !rest.head?.any isBlank then none
    else
      let (text, rest) ← readTagText true (rest.dropWhile isBlank)
      if atBlankOrEnd rest then return (.handle handle text, rest) else none
  else none

/-- Reads a directive with the rest of its line, on which only a comment may follow. -/
def fetchDirective (lexer : Lexer) : Option Lexer := do
  let lexer ← (lexer.closeBeyond (-1)).dropKey
  let (token, rest) ← readDirective (lexer.rest.drop 1)
  let rest := rest.dropWhile isBlank
  let rest := if rest.head? = some '#' then rest.dropWhile fun c => !isBreak c else rest
  if atBreakOrEnd rest then return { lexer with keyAllowed := false }.pushTo token (rest.drop 1)
  else none

def fetchDocumentMark (lexer : Lexer) (token : Token) : Option Lexer := do
  let lexer ← (lexer.closeBeyond (-1)).dropKey
  return { lexer with keyAllowed := false }.pushNext 3 token

def fetchOpening (lexer : Lexer) (token : Token) : Option Lexer := do
  let lexer ← lexer.noteKey
  return { lexer with
    outerKeys := lexer.possibleKey :: lexer.outerKeys
    possibleKey := none
    keyAllowed := true }.pushNext 1 token

def fetchClosing (lexer : Lexer) (token : Token) : Option Lexer := do
  let lexer ← lexer.dropKey
  let lexer := match lexer.outerKeys with
    | [] => lexer
    | key :: keys => { lexer with possibleKey := key, outerKeys := keys }
  return { lexer with keyAllowed := false }.pushNext 1 token

def fetchComma (lexer : Lexer) : Option Lexer := do
  let lexer ← lexer.dropKey
  return { lexer with keyAllowed := true }.pushNext 1 .flowEntry

def fetchDash (lexer : Lexer) : Option Lexer := do
  let lexer ← lexer.openHere .blockSequenceStart
  let lexer ← lexer.dropKey
  return { lexer with keyAllowed := true }.pushNext 1 .blockEntry

def fetchQuestion (lexer : Lexer) : Option Lexer := do
  let lexer ← lexer.openHere .blockMappingStart
  let lexer ← lexer.dropKey
  return { lexer with keyAllowed := !lexer.inFlow }.pushNext 1 .key

def fetchColon (lexer : Lexer) : Option Lexer := do
  let lexer ← match lexer.possibleKey with
    | some key =>
      let lexer := lexer.insertAt key.position .key
      let lexer := lexer.openAt key.column key.position .blockMappingStart
      pure { lexer with possibleKey := none, keyAllowed := false }
    | none =>
      let lexer ← lexer.openHere .blockMappingStart
      pure { lexer with keyAllowed := !lexer.inFlow }
  return lexer.pushNext 1 .value

/-- Reads the name of an anchor behind its mark. -/
def fetchName (lexer : Lexer) (token : List Char → Token) : Option Lexer := do
  let lexer ← lexer.noteKey
  let (name, rest) := (lexer.rest.drop 1).span isWordChar
  let ends := atBlankOrEnd rest || rest.head?.any fun c => "?:,]\x7d%@`".toList.contains c
  if name.isEmpty || !ends then none
  else return { lexer with keyAllowed := false }.pushTo (token name) rest

def fetchTag (lexer : Lexer) : Option Lexer := do
  let lexer ← lexer.noteKey
  let (tag, rest) ← readTag lexer.rest
  if atBlankOrEnd rest || (lexer.inFlow && rest.head? == some ',') then
    return { lexer with keyAllowed := false }.pushTo (.tag tag) rest
  else none

def fetchBlock (lexer : Lexer) (folded : Bool) : Option Lexer := do
  let lexer ← lexer.dropKey
  let (text, rest) ← readBlock folded lexer.columns.head? (lexer.rest.drop 1)
  return { lexer with keyAllowed := true }.pushTo (.scalar false text) rest

def fetchQuoted (lexer : Lexer) (quote : Char) : Option Lexer := do
  let lexer ← lexer.noteKey
  let (text, rest) ← readQuoted quote (lexer.rest.drop 1)
  return { lexer with keyAllowed := false }.pushTo (.scalar false text) rest

def fetchPlain (lexer : Lexer) : Option Lexer := do
  let lexer ← lexer.noteKey
  let read ← readPlain lexer.inFlow (lexer.indent + 1) .none lexer.rest
  return { lexer with keyAllowed := read.atLine }.pushTo (.scalar true read.text) read.rest

/-- Whether plain text may begin with a character that is followed by a text. -/
def mayBeginPlain (inFlow : Bool) (c : Char) (following : List Char) : Bool :=
  !(isBlank c || "-?:,[]\x7b\x7d#&*!|>'\"%@`".toList.contains c) ||
    (c == '-' && !following.head?.any isBlank) ||
    (!inFlow && (c == '?' || c == ':') && !atBlankOrEnd following)

/-- Reads the token that begins with a character. -/
def fetch (lexer : Lexer) (c : Char) (following : List Char) : Option Lexer :=
  let atStart := lexer.column = 0
  if atStart ∧ c = '%' then lexer.fetchDirective
  else if atStart ∧ c = '-' ∧ atDocumentMark lexer.rest then lexer.fetchDocumentMark .documentStart
  else if atStart ∧ c = '.' ∧ atDocumentMark lexer.rest then lexer.fetchDocumentMark .documentEnd
  else if c = '[' then lexer.fetchOpening .flowSequenceStart
  else if c = '\x7b' then lexer.fetchOpening .flowMappingStart
  else if c = ']' then lexer.fetchClosing .flowSequenceEnd
  else if c = '\x7d' then lexer.fetchClosing .flowMappingEnd
  else if c = ',' then lexer.fetchComma
  else if c = '-' ∧ atBlankOrEnd following then lexer.fetchDash
  else if c = '?' ∧ (lexer.inFlow || atBlankOrEnd following) then lexer.fetchQuestion
  else if c = ':' ∧ (lexer.inFlow || atBlankOrEnd following) then lexer.fetchColon
  else if c = '*' then lexer.fetchName .aliasTo
  else if c = '&' then lexer.fetchName .anchor
  else if c = '!' then lexer.fetchTag
  else if c = '|' ∧ !lexer.inFlow then lexer.fetchBlock false
  else if c = '>' ∧ !lexer.inFlow then lexer.fetchBlock true
  else if c = '\'' ∨ c = '"' then lexer.fetchQuoted c
  else if mayBeginPlain lexer.inFlow c following then lexer.fetchPlain
  else none

/-- Reads tokens to the end of the text, at most `fuel` of them. -/
def run : Nat → Lexer → Option (List Token)
  | 0, _ => none
  | fuel + 1, lexer => do
    let lexer ← lexer.toToken.expireKeys
    let lexer := lexer.closeBeyond lexer.column
    match lexer.rest with
    | [] => return (← (lexer.closeBeyond (-1)).dropKey).tokens.reverse
    | c :: following => run fuel (← lexer.fetch c following)

end Lexer

/-- The tokens of a text with unified line breaks. Every token takes a character of the text. -/
def Token.ofText? (text : List Char) : Option (List Token) :=
  (Lexer.start text).run (text.length + 1)

end HighlightGrammar.Yaml

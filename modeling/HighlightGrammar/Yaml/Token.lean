import HighlightGrammar.Yaml.Tag

/-! # Tokens

A document is read as a list of tokens. Collections in block style have no brackets; the tokens that
open and close them are found from the columns of their entries. -/
namespace HighlightGrammar.Yaml

/-- A token of a document. -/
inductive Token where
  | version (major minor : Nat)
  | handle (handle : List Char) (text : List UInt8)
  | documentStart
  | documentEnd
  | blockSequenceStart
  | blockMappingStart
  /-- The end of a collection in block style. -/
  | blockEnd
  | flowSequenceStart
  | flowSequenceEnd
  | flowMappingStart
  | flowMappingEnd
  /-- The dash in front of an item. -/
  | blockEntry
  /-- The comma between items or entries. -/
  | flowEntry
  /-- What comes next is a key. -/
  | key
  /-- What comes next is a value. -/
  | value
  | aliasTo (name : List Char)
  | anchor (name : List Char)
  | tag (written : WrittenTag)
  | scalar (isPlain : Bool) (text : List Char)
deriving DecidableEq, Repr

end HighlightGrammar.Yaml

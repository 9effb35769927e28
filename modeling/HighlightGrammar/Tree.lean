import HighlightGrammar.Decimal.Layout
import HighlightGrammar.Table

/-! # Document trees

A grammar document is a tree of scalars, sequences, mappings and tagged values. Mappings keep the
order in which their keys were first written. -/
namespace HighlightGrammar

open Decimal

/-- A number of a document: an integer or a binary64 number. The two are never equal. -/
inductive Number where
  | int (value : Int)
  | float (value : Binary64)
deriving DecidableEq, Repr

namespace Number

/-- Numbers of documents are written positionally while the exponent of the leading digit is from
-5 to 15, whole ones with a point and a zero, and otherwise with a bare exponent. -/
def layout : Layout where
  positional := fun lead => -5 ≤ lead && lead < 16
  pointZero := true
  signedExponent := false
  tie := .toEven
  nan := ".nan"
  infinity := ".inf"

/-- The text of a number, which also names it where a name is wanted. -/
def text : Number → String
  | int value => toString value
  | float value => layout.render value

def same : Number → Number → Bool
  | int a, int b => a == b
  | float a, float b => a.same b
  | _, _ => false

end Number

/-- A document tree. -/
inductive Tree where
  | null
  | bool (value : Bool)
  | number (value : Number)
  | string (text : String)
  | sequence (items : List Tree)
  | mapping (entries : List (Tree × Tree))
  | tagged (tag : String) (content : Tree)
deriving Inhabited

/-- The entries of a mapping, in order. -/
abbrev Entries := List (Tree × Tree)

namespace Tree

mutual

/-- Equality of trees by meaning: the order of the entries of a mapping does not count, and numbers
are compared as numbers. -/
def same : Tree → Tree → Bool
  | null, null => true
  | bool a, bool b => a == b
  | number a, number b => a.same b
  | string a, string b => a == b
  | sequence as, sequence bs => sameItems as bs
  | mapping as, mapping bs => as.length == bs.length && sameEntries as bs
  | tagged s a, tagged t b => s == t && same a b
  | _, _ => false
termination_by structural tree => tree

def sameItems : List Tree → List Tree → Bool
  | [], [] => true
  | a :: as, b :: bs => same a b && sameItems as bs
  | _, _ => false
termination_by structural items => items

/-- Whether every entry of the first list has an equal one in the second. -/
def sameEntries : List (Tree × Tree) → List (Tree × Tree) → Bool
  | [], _ => true
  | (key, value) :: rest, others =>
    (match others.find? fun e => same key e.1 with
      | some e => same value e.2
      | none => false) && sameEntries rest others
termination_by structural entries => entries

end

instance : BEq Tree := ⟨same⟩

/-- How a tree is spoken of in messages. -/
def describe : Tree → String
  | null => "null"
  | bool _ => "a boolean"
  | number _ => "a number"
  | string _ => "a string"
  | sequence _ => "a sequence"
  | mapping _ => "a mapping"
  | tagged _ _ => "a tagged value"

/-- The tree behind its outermost tags. -/
def untagged : Tree → Tree
  | tagged _ content => content.untagged
  | tree => tree

/-- The text of a string, seen through tags. -/
def text? (tree : Tree) : Option String :=
  match tree.untagged with
  | string text => some text
  | _ => none

/-- The name that a key gives to its entry: strings and numbers have one. -/
def name? : Tree → Option String
  | string text => some text
  | number value => some value.text
  | _ => none

/-- The name of a tag: one exclamation mark in front of it belongs to the notation. -/
def tagName (written : String) : String :=
  match written.toList with
  | '!' :: c :: rest => String.ofList (c :: rest)
  | _ => written

end Tree

namespace Entries

/-- Writes a value under a key. -/
def put (entries : Entries) (key value : Tree) : Entries := Table.put Tree.same key value entries

/-- Writes a value under a string key. -/
def putText (entries : Entries) (key : String) (value : Tree) : Entries :=
  entries.put (.string key) value

/-- Writes values under string keys, in order. -/
def putTexts (entries : Entries) (named : List (String × Tree)) : Entries :=
  named.foldl (fun entries e => entries.putText e.1 e.2) entries

/-- The value under a plain string key. -/
def get? (entries : Entries) (key : String) : Option Tree :=
  Table.get? Tree.same (.string key) entries

end Entries

end HighlightGrammar

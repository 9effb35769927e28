import HighlightGrammar.Tree

/-! # Outlines of trees

A tree is written mark by mark: a collection opens, its nodes follow, and it closes. A mapping of
one entry may turn out to be a tag and its content, so it opens only when its key is written. A key
that is a tagged value, or again a mapping of one entry, takes the place of that opening. Such a
mapping closes without having opened, unless it stands behind a tag, and then the tree has no text.
The other trees without a text are those with a tag directly inside a tag.

Of two faults in a tree the one that is met first counts. A mapping is not written before three more
marks are known, unless it closes earlier, and a sequence not before two; so a mark that has no
place is met late. -/
namespace HighlightGrammar.Yaml

/-- Why a tree has no text. -/
inductive WriteError where
  | tagInTag
  /-- A collection that closes without having opened. -/
  | unpaired
deriving DecidableEq, Repr

def WriteError.message : WriteError → String
  | tagInTag => "serializing nested enums in YAML is not supported yet"
  | unpaired => "<emitter>"

/-- A step of writing a tree. -/
inductive Mark where
  | scalar
  | beginSequence
  | endSequence
  | beginMapping
  | endMapping
  /-- A tag directly inside a tag, where writing ends. -/
  | tagInTag
deriving DecidableEq, Repr

/-- What stands in front of a node and has not been written. -/
inductive Unwritten where
  | nothing
  /-- A mapping of one entry, of which the node is the key. -/
  | mapping
  | tag
deriving DecidableEq, Repr

/-- Marks behind the opening of a mapping, if that is unwritten. -/
def Unwritten.release (marks : List Mark) : Unwritten → List Mark
  | mapping => .beginMapping :: marks
  | _ => marks

mutual

/-- The marks of a node in front of those that follow it. -/
def nodeMarks (unwritten : Unwritten) : Tree → List Mark → List Mark
  | .tagged _ content, rest =>
    if unwritten = .tag then [.beginMapping, .tagInTag] else nodeMarks .tag content rest
  | .sequence items, rest =>
    unwritten.release (.beginSequence :: itemMarks items (.endSequence :: rest))
  | .mapping ((key, value) :: entries), rest =>
    if entries.isEmpty ∧ unwritten ≠ .tag then
      nodeMarks .mapping key (nodeMarks .nothing value (.endMapping :: rest))
    else
      let inner := nodeMarks .nothing value (entryMarks entries (.endMapping :: rest))
      unwritten.release (.beginMapping :: nodeMarks .nothing key inner)
  | .mapping [], rest => unwritten.release (.beginMapping :: .endMapping :: rest)
  | _, rest => unwritten.release (.scalar :: rest)
termination_by structural tree => tree

/-- The marks of the items of a sequence. -/
def itemMarks : List Tree → List Mark → List Mark
  | [], rest => rest
  | item :: items, rest => nodeMarks .nothing item (itemMarks items rest)
termination_by structural items => items

/-- The marks of the entries of a mapping. -/
def entryMarks : List (Tree × Tree) → List Mark → List Mark
  | [], rest => rest
  | (key, value) :: entries, rest =>
    nodeMarks .nothing key (nodeMarks .nothing value (entryMarks entries rest))
termination_by structural entries => entries

end

/-- The marks of a tree. -/
def outline (tree : Tree) : List Mark := nodeMarks .nothing tree []

/-- A collection that is open; a mapping waits for a key or for a value. -/
inductive Opening where
  | sequence
  | key
  | value
deriving DecidableEq, Repr

/-- What is open behind a node. -/
def passNode : List Opening → List Opening
  | .key :: outer => .value :: outer
  | .value :: outer => .key :: outer
  | outer => outer

/-- What is open behind a mark, if the mark has a place there. -/
def Mark.pass? (opened : List Opening) : Mark → Option (List Opening)
  | scalar => some (passNode opened)
  | beginSequence => some (.sequence :: passNode opened)
  | beginMapping => some (.key :: passNode opened)
  | endSequence =>
    match opened with
    | .sequence :: outer => some outer
    | _ => none
  | endMapping =>
    match opened with
    | .key :: outer => some outer
    | _ => none
  | tagInTag => none

/-- The number of marks that have to be known behind a mark before it is written. -/
def Mark.foresight : Mark → Nat
  | beginSequence => 2
  | beginMapping => 3
  | _ => 0

/-- Whether a collection is known well enough: `more` marks are, or it closes before that. The
collections that are open inside of it, itself included, are `depth`. -/
def isForeseen : (depth more : Nat) → List Mark → Bool
  | 0, _, _ => true
  | _, 0, _ => true
  | _, _, [] => true
  | depth + 1, more + 1, mark :: rest =>
    match mark with
    | .tagInTag => false
    | .scalar => isForeseen (depth + 1) more rest
    | .beginSequence | .beginMapping => isForeseen (depth + 2) more rest
    | .endSequence | .endMapping => isForeseen depth more rest

/-- The first fault that is met in a list of marks. -/
def firstFault? (opened : List Opening) : List Mark → Option WriteError
  | [] => none
  | .tagInTag :: _ => some .tagInTag
  | mark :: rest =>
    if isForeseen 1 mark.foresight rest then
      match mark.pass? opened with
      | some opened => firstFault? opened rest
      | none => some .unpaired
    else some .tagInTag

/-- Why a tree has no text, if it has none. -/
def fault? (tree : Tree) : Option WriteError := firstFault? [] (outline tree)

end HighlightGrammar.Yaml

import HighlightGrammar.Yaml.Node
import HighlightGrammar.Yaml.Scalar
import HighlightGrammar.Yaml.Token.Lexer

/-! # Reading YAML

A text holds one document. Its nodes become a tree: plain scalars are resolved by their text, local
tags become tagged values, and every alias becomes the tree of its anchor. Collections may lie in
each other to a depth of 128, and there is a limit to how many aliases are followed. -/
namespace HighlightGrammar.Yaml

/-- Why a text is no document. -/
inductive ReadError where
  /-- A character that no document may hold. -/
  | character
  /-- Text that makes no tokens, or tokens that make no single document. -/
  | form
  /-- An alias without an anchor in front of it. -/
  | unknownAlias
  /-- Collections that lie too deep, or in themselves. -/
  | depth
  /-- Too many aliases. -/
  | repetition
  /-- A key that is in its mapping already. -/
  | duplicateKey
  /-- A scalar that is not what its tag or its text promises. -/
  | scalar
deriving DecidableEq, Repr

/-- All faults of a text are reported alike. -/
def ReadError.message (_ : ReadError) : String := "<yaml>"

/-- The anchors in front of a place: for every name a slot, which is the number of names that were
known when it was set. -/
abbrev Anchors := List (List Char × Nat)

namespace Anchors

/-- Sets an anchor: the name takes a slot, and where a name is set again, it may share its slot with
the next new name. -/
def set (anchors : Anchors) (name : List Char) : Anchors :=
  Table.put (· == ·) name anchors.length anchors

def slot? (anchors : Anchors) (name : List Char) : Option Nat :=
  Table.get? (· == ·) name anchors

end Anchors

/-- A node whose aliases name slots. -/
inductive SlotNode where
  | scalar (tag : Option (List UInt8)) (isPlain : Bool) (text : List Char)
  | sequence (tag : Option (List UInt8)) (items : List SlotNode)
  | mapping (tag : Option (List UInt8)) (entries : List (SlotNode × SlotNode))
  | aliasTo (slot : Nat)
deriving Inhabited

/-- The nodes that have an anchor, with their slots, in the order in which they begin. -/
abbrev Anchored := List (Nat × SlotNode)

namespace Anchored

/-- The last node with a slot. -/
def node? (anchored : Anchored) (slot : Nat) : Option SlotNode :=
  (anchored.reverse.find? fun e => e.1 == slot).map Prod.snd

end Anchored

namespace Node

/-- The anchors behind the properties of a node. -/
def anchorsBehind (properties : Properties) (anchors : Anchors) : Anchors :=
  (properties.anchor.map anchors.set).getD anchors

/-- The entry of a node among the anchored ones. -/
def ownEntry (properties : Properties) (anchors : Anchors) (node : SlotNode) : Anchored :=
  (properties.anchor.map fun _ => (anchors.length, node)).toList

/-- Slots for the aliases of a node, with the anchors behind it and the anchored nodes in it. -/
structure Slotted (α : Type) where
  result : α
  anchors : Anchors
  anchored : Anchored

mutual

/-- Gives slots to the aliases of a node. Every name has to be known where it is used. -/
def slots (anchors : Anchors) : Node → Except ReadError (Slotted SlotNode)
  | aliasTo name =>
    match anchors.slot? name with
    | some slot => .ok ⟨.aliasTo slot, anchors, []⟩
    | none => .error .unknownAlias
  | scalar properties isPlain text =>
    let node := SlotNode.scalar properties.tag isPlain text
    .ok ⟨node, anchorsBehind properties anchors, ownEntry properties anchors node⟩
  | sequence properties items => do
    let inner ← slotsOfItems (anchorsBehind properties anchors) items
    let node := SlotNode.sequence properties.tag inner.result
    return ⟨node, inner.anchors, ownEntry properties anchors node ++ inner.anchored⟩
  | mapping properties entries => do
    let inner ← slotsOfEntries (anchorsBehind properties anchors) entries
    let node := SlotNode.mapping properties.tag inner.result
    return ⟨node, inner.anchors, ownEntry properties anchors node ++ inner.anchored⟩
termination_by structural node => node

def slotsOfItems (anchors : Anchors) : List Node → Except ReadError (Slotted (List SlotNode))
  | [] => .ok ⟨[], anchors, []⟩
  | node :: nodes => do
    let one ← slots anchors node
    let more ← slotsOfItems one.anchors nodes
    return ⟨one.result :: more.result, more.anchors, one.anchored ++ more.anchored⟩
termination_by structural nodes => nodes

def slotsOfEntries (anchors : Anchors) :
    List (Node × Node) → Except ReadError (Slotted (List (SlotNode × SlotNode)))
  | [] => .ok ⟨[], anchors, []⟩
  | (key, value) :: entries => do
    let one ← slots anchors key
    let two ← slots one.anchors value
    let more ← slotsOfEntries two.anchors entries
    return ⟨(one.result, two.result) :: more.result, more.anchors,
      one.anchored ++ two.anchored ++ more.anchored⟩
termination_by structural entries => entries

end

end Node

/-- What a plain text stands for, or that it stands for nothing. -/
def resolvePlain (text : List Char) : Except ReadError Tree :=
  match resolve text with
  | .tree tree => .ok tree
  | .outOfRange => .error .scalar

/-- The value that a tag asks for, if there is one. -/
def required (value? : Option Tree) : Except ReadError Tree :=
  match value? with
  | some tree => .ok tree
  | none => .error .scalar

/-- The tree of a scalar. Only plain text is resolved by what it says; between quotes or in a block
it is a string unless the tag says otherwise. -/
def scalarTree (tag : Option (List UInt8)) (isPlain : Bool) (text : List Char) :
    Except ReadError Tree :=
  let string : Tree := .string (String.ofList text)
  let untagged := if isPlain then resolvePlain text else .ok string
  match tag.map meaningOf with
  | none => untagged
  | some .unnamed => untagged
  | some (.named name) => untagged.map (Tree.tagged (Tree.tagName name))
  | some .bool => required ((boolText? text).map Tree.bool)
  | some .int => required (((integer? text).filter fits64).map fun n => .number (.int n))
  | some .float => required ((float? text).map fun x => .number (.float x))
  | some .null => if isNullText text then .ok .null else .error .scalar
  | some .other => .ok string

/-- The tree of a collection with its tag, if that is a local one. -/
def collectionTree (tag : Option (List UInt8)) (tree : Tree) : Tree :=
  match tag.map meaningOf with
  | some (.named name) => .tagged (Tree.tagName name) tree
  | _ => tree

/-- Trees that are being made, with the number of aliases that may still be followed. -/
abbrev Expansion := StateT Nat (Except ReadError)

/-- Adds an entry whose key must be new. -/
def addEntry (entries : Entries) (key value : Tree) : Except ReadError Entries :=
  if entries.any fun e => e.1.same key then .error .duplicateKey
  else .ok (entries ++ [(key, value)])

/-- The node that an alias stands for. -/
def follow (anchored : Anchored) : SlotNode → Expansion SlotNode
  | .aliasTo slot => fun jumps =>
    match jumps, anchored.node? slot with
    | 0, _ => .error .repetition
    | _, none => .error .unknownAlias
    | jumps + 1, some node => .ok (node, jumps)
  | node => pure node

/-- The tree of a node in which collections may still lie to the given depth. -/
def expand (anchored : Anchored) : Nat → SlotNode → Expansion Tree
  | depth, node => do
    match ← follow anchored node, depth with
    | .scalar tag isPlain text, _ => StateT.lift (scalarTree tag isPlain text)
    | .aliasTo _, _ => StateT.lift (.error .unknownAlias)
    | .sequence _ _, 0 => StateT.lift (.error .depth)
    | .mapping _ _, 0 => StateT.lift (.error .depth)
    | .sequence tag items, depth + 1 => do
      let items ← items.mapM (expand anchored depth)
      return collectionTree tag (.sequence items)
    | .mapping tag entries, depth + 1 => do
      let entries ← entries.foldlM (fun read e => do
        let key ← expand anchored depth e.1
        let value ← expand anchored depth e.2
        StateT.lift (addEntry read key value)) []
      return collectionTree tag (.mapping entries)

/-- How deep collections may lie in each other. -/
def deepest : Nat := 128

/-- How many aliases may be followed for every step through the document. -/
def jumpsPerStep : Nat := 100

/-- The tree of a document. -/
def Node.tree (root : Node) : Except ReadError Tree := do
  let slotted ← root.slots []
  let (tree, _) ← expand slotted.anchored deepest slotted.result (root.size * jumpsPerStep)
  return tree

/-- The tree that a text holds. -/
def read (text : String) : Except ReadError Tree :=
  if text.toList.any fun c => !isAllowed c then .error .character
  else match (Token.ofText? (unifyBreaks text.toList)).bind Node.ofTokens? with
    | some root => root.tree
    | none => .error .form

end HighlightGrammar.Yaml

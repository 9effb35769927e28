import HighlightGrammar.Yaml.Token

/-! # Nodes

The tokens of a document make a tree of nodes: scalars, sequences, mappings and aliases, with the
anchors and tags in front of them. Where a node may be missing, an empty plain scalar takes its
place. -/
namespace HighlightGrammar.Yaml

/-- What stands in front of a node. -/
structure Properties where
  anchor : Option (List Char)
  tag : Option (List UInt8)
deriving DecidableEq, Repr

def Properties.none : Properties := ⟨.none, .none⟩

/-- A node of a document. -/
inductive Node where
  | scalar (properties : Properties) (isPlain : Bool) (text : List Char)
  | sequence (properties : Properties) (items : List Node)
  | mapping (properties : Properties) (entries : List (Node × Node))
  | aliasTo (name : List Char)
deriving Inhabited

namespace Node

/-- A node that is missing. -/
def empty : Node := scalar .none true []

mutual

/-- The number of steps in which one goes through a node: one for a scalar or an alias, and one for
each end of a collection. -/
def size : Node → Nat
  | scalar _ _ _ => 1
  | aliasTo _ => 1
  | sequence _ items => sizeItems items + 2
  | mapping _ entries => sizeEntries entries + 2
termination_by structural node => node

def sizeItems : List Node → Nat
  | [] => 0
  | node :: nodes => size node + sizeItems nodes
termination_by structural nodes => nodes

def sizeEntries : List (Node × Node) → Nat
  | [] => 0
  | (key, value) :: entries => size key + size value + sizeEntries entries
termination_by structural entries => entries

end

/-- The bytes of a tag that may be missing. -/
def tagBytes? (handles : TagHandles) : Option WrittenTag → Option (Option (List UInt8))
  | none => some none
  | some tag => (tag.bytes? handles).map some

/-- Reads an anchor and a tag, in either order, at most one of each. -/
def readProperties (handles : TagHandles) (tokens : List Token) :
    Option (Properties × List Token) := do
  let (anchor, tag, rest) := match tokens with
    | .anchor name :: .tag tag :: rest => (some name, some tag, rest)
    | .tag tag :: .anchor name :: rest => (some name, some tag, rest)
    | .anchor name :: rest => (some name, none, rest)
    | .tag tag :: rest => (none, some tag, rest)
    | rest => (none, none, rest)
  return (⟨anchor, ← tagBytes? handles tag⟩, rest)

/-- Whether a list of tokens goes on with one of some tokens. -/
def goesOn (ends : List Token) (tokens : List Token) : Bool := tokens.head?.any ends.contains

mutual

/-- Reads a node. Collections in block style need `inBlock`, and items that are not set in below
their key need `loose`. -/
def read (handles : TagHandles) :
    Nat → (inBlock loose : Bool) → List Token → Option (Node × List Token)
  | 0, _, _, _ => none
  | fuel + 1, inBlock, loose, tokens =>
    match tokens with
    | .aliasTo name :: rest => some (aliasTo name, rest)
    | _ => do
      let (properties, rest) ← readProperties handles tokens
      match rest with
      | .scalar isPlain text :: rest => return (scalar properties isPlain text, rest)
      | .flowSequenceStart :: rest =>
        let (items, rest) ← readFlowItems handles fuel true rest
        return (sequence properties items, rest)
      | .flowMappingStart :: rest =>
        let (entries, rest) ← readFlowEntries handles fuel true rest
        return (mapping properties entries, rest)
      | token :: following =>
        if loose ∧ token = .blockEntry then
          let (items, rest) ← readItems handles fuel true rest
          return (sequence properties items, rest)
        else if inBlock ∧ token = .blockSequenceStart then
          let (items, rest) ← readItems handles fuel false following
          return (sequence properties items, rest)
        else if inBlock ∧ token = .blockMappingStart then
          let (entries, rest) ← readEntries handles fuel following
          return (mapping properties entries, rest)
        else if properties = .none then none
        else return (scalar properties true [], rest)
      | [] => if properties = .none then none else return (scalar properties true [], [])

/-- Reads a node, or none if one of the tokens comes that end it. -/
def readOrEmpty (handles : TagHandles) :
    Nat → (inBlock loose : Bool) → (ends : List Token) → List Token → Option (Node × List Token)
  | 0, _, _, _, _ => none
  | fuel + 1, inBlock, loose, ends, tokens =>
    if goesOn ends tokens then some (empty, tokens) else read handles fuel inBlock loose tokens

/-- Reads the items of a sequence in block style. Those of a `loose` one end with the dashes. -/
def readItems (handles : TagHandles) :
    Nat → (loose : Bool) → List Token → Option (List Node × List Token)
  | 0, _, _ => none
  | fuel + 1, loose, tokens =>
    match tokens with
    | .blockEntry :: rest => do
      let ends : List Token :=
        if loose then [.blockEntry, .key, .value, .blockEnd] else [.blockEntry, .blockEnd]
      let (item, rest) ← readOrEmpty handles fuel true false ends rest
      let (items, rest) ← readItems handles fuel loose rest
      return (item :: items, rest)
    | tokens =>
      if loose then some ([], tokens)
      else match tokens with
        | .blockEnd :: rest => some ([], rest)
        | _ => none

/-- Reads the entries of a mapping in block style. -/
def readEntries (handles : TagHandles) :
    Nat → List Token → Option (List (Node × Node) × List Token)
  | 0, _ => none
  | fuel + 1, tokens =>
    match tokens with
    | .key :: rest => do
      let ends : List Token := [.key, .value, .blockEnd]
      let (key, rest) ← readOrEmpty handles fuel true true ends rest
      let (value, rest) ← readValue handles fuel true ends rest
      let (entries, rest) ← readEntries handles fuel rest
      return ((key, value) :: entries, rest)
    | .blockEnd :: rest => some ([], rest)
    | _ => none

/-- Reads the value of an entry, which is missing without its colon. -/
def readValue (handles : TagHandles) :
    Nat → (inBlock : Bool) → (ends : List Token) → List Token → Option (Node × List Token)
  | 0, _, _, _ => none
  | fuel + 1, inBlock, ends, tokens =>
    match tokens with
    | .value :: rest => readOrEmpty handles fuel inBlock inBlock ends rest
    | tokens => some (empty, tokens)

/-- Reads the items between square brackets; all but the first stand behind a comma. -/
def readFlowItems (handles : TagHandles) :
    Nat → (isFirst : Bool) → List Token → Option (List Node × List Token)
  | 0, _, _ => none
  | fuel + 1, isFirst, tokens =>
    match tokens with
    | .flowSequenceEnd :: rest => some ([], rest)
    | tokens => do
      let tokens ← if isFirst then some tokens else match tokens with
        | .flowEntry :: rest => some rest
        | _ => none
      match tokens with
      | .flowSequenceEnd :: rest => return ([], rest)
      | .key :: rest =>
        let (entry, rest) ← readFlowPair handles fuel rest
        let (items, rest) ← readFlowItems handles fuel false rest
        return (mapping .none [entry] :: items, rest)
      | tokens =>
        let (item, rest) ← read handles fuel false false tokens
        let (items, rest) ← readFlowItems handles fuel false rest
        return (item :: items, rest)

/-- Reads an entry that is an item of a sequence. Where its key is missing, the token behind it is
lost. -/
def readFlowPair (handles : TagHandles) :
    Nat → List Token → Option ((Node × Node) × List Token)
  | 0, _ => none
  | fuel + 1, tokens => do
    let (key, rest) ← if goesOn [.value, .flowEntry, .flowSequenceEnd] tokens then
        some (empty, tokens.drop 1)
      else read handles fuel false false tokens
    let (value, rest) ← readValue handles fuel false [.flowEntry, .flowSequenceEnd] rest
    return ((key, value), rest)

/-- Reads the entries between braces; all but the first stand behind a comma. A node that is not
told to be a key has no value. -/
def readFlowEntries (handles : TagHandles) :
    Nat → (isFirst : Bool) → List Token → Option (List (Node × Node) × List Token)
  | 0, _, _ => none
  | fuel + 1, isFirst, tokens =>
    match tokens with
    | .flowMappingEnd :: rest => some ([], rest)
    | tokens => do
      let tokens ← if isFirst then some tokens else match tokens with
        | .flowEntry :: rest => some rest
        | _ => none
      match tokens with
      | .flowMappingEnd :: rest => return ([], rest)
      | .key :: rest =>
        let (key, rest) ←
          readOrEmpty handles fuel false false [.value, .flowEntry, .flowMappingEnd] rest
        let (value, rest) ← readValue handles fuel false [.flowEntry, .flowMappingEnd] rest
        let (entries, rest) ← readFlowEntries handles fuel false rest
        return ((key, value) :: entries, rest)
      | tokens =>
        let (key, rest) ← read handles fuel false false tokens
        let (entries, rest) ← readFlowEntries handles fuel false rest
        return ((key, empty) :: entries, rest)

end

/-- What the directives in front of a document have said. -/
structure Directives where
  hasVersion : Bool
  handles : TagHandles
deriving Repr

/-- Reads directives: at most one for the version, which has to be 1.1 or 1.2, and one for every
handle. -/
def readDirectives : Directives → List Token → Option (Directives × List Token)
  | said, .version major minor :: rest =>
    if said.hasVersion || major ≠ 1 || (minor ≠ 1 && minor ≠ 2) then none
    else readDirectives { said with hasVersion := true } rest
  | said, .handle handle text :: rest =>
    if said.handles.any fun h => h.1 == handle then none
    else readDirectives { said with handles := said.handles ++ [(handle, text)] } rest
  | said, rest => some (said, rest)

/-- Whether a document ends or another one begins. -/
def atDocumentEnd : List Token → Bool
  | [] => true
  | .version _ _ :: _ => true
  | .handle _ _ :: _ => true
  | .documentStart :: _ => true
  | .documentEnd :: _ => true
  | _ => false

/-- Whether a document is opened by directives or by its mark. -/
def isOpened : List Token → Bool
  | .version _ _ :: _ => true
  | .handle _ _ :: _ => true
  | .documentStart :: _ => true
  | _ => false

/-- The root node of the only document. Without a document there is an empty node. Handles that a
directive gives a text go before the standard ones. -/
def ofTokens? (tokens : List Token) : Option Node := do
  let fuel := 3 * tokens.length + 3
  let (root, rest) ← match tokens with
    | [] => some (empty, [])
    | _ =>
      if isOpened tokens then do
        let (said, rest) ← readDirectives ⟨false, []⟩ tokens
        match rest with
        | .documentStart :: rest =>
          if atDocumentEnd rest then pure (empty, rest)
          else read (said.handles ++ standardHandles) fuel true false rest
        | _ => none
      else read standardHandles fuel true false tokens
  if rest.all (· == Token.documentEnd) then return root else none

end Node

end HighlightGrammar.Yaml

import HighlightGrammar.Encoding.PropertyList
import HighlightGrammar.Proofs.Fallible

/-!
# What a property list cannot hold

The places of a tree are told by positions and have an order, that in which the tree is written: a
key stands in front of its value and an entry in front of the next one. A tree is a property list
if no null stands at any place and all keys are names; otherwise the first place that offends is
reported. -/
namespace HighlightGrammar

namespace Tree

/-- Where a tree stands in another one: the positions that lead there. Of an entry the key stands at
position 0 and the value at position 1. -/
inductive At : Tree → List Nat → Tree → Prop
  | here (tree : Tree) : At tree [] tree
  | item {items : List Tree} {index : Nat} {item : Tree} {place : List Nat} {inner : Tree}
      (get : items[index]? = some item) (rest : At item place inner) :
      At (.sequence items) (index :: place) inner
  | key {entries : Entries} {index : Nat} {key value : Tree} {place : List Nat} {inner : Tree}
      (get : entries[index]? = some (key, value)) (rest : At key place inner) :
      At (.mapping entries) (index :: 0 :: place) inner
  | value {entries : Entries} {index : Nat} {key value : Tree} {place : List Nat} {inner : Tree}
      (get : entries[index]? = some (key, value)) (rest : At value place inner) :
      At (.mapping entries) (index :: 1 :: place) inner
  | content {tag : String} {content : Tree} {place : List Nat} {inner : Tree}
      (rest : At content place inner) : At (.tagged tag content) (0 :: place) inner

/-- The order in which places are written: a tree stands in front of its parts, and a part in front
of those that come later. -/
inductive InOrder : List Nat → List Nat → Prop
  | root (place : List Nat) : InOrder [] place
  | earlier {position other : Nat} {place rest : List Nat} (less : position < other) :
      InOrder (position :: place) (other :: rest)
  | inside {position : Nat} {place rest : List Nat} (inner : InOrder place rest) :
      InOrder (position :: place) (position :: rest)

theorem InOrder.antisymm {place other : List Nat} (h : InOrder place other)
    (h' : InOrder other place) : place = other := by
  induction h with
  | root => cases h'; rfl
  | earlier less =>
    cases h' with
    | earlier less' => exact absurd less' (Nat.lt_asymm less)
    | inside => exact absurd less (Nat.lt_irrefl _)
  | inside _ ih =>
    cases h' with
    | earlier less => exact absurd less (Nat.lt_irrefl _)
    | inside inner => rw [ih inner]

theorem InOrder.succ {position other : Nat} {place rest : List Nat}
    (h : InOrder (position :: place) (other :: rest)) :
    InOrder ((position + 1) :: place) ((other + 1) :: rest) := by
  cases h with
  | earlier less => exact .earlier (Nat.succ_lt_succ less)
  | inside inner => exact .inside inner

/-- A value without parts. -/
def isScalar : Tree → Bool
  | bool _ | number _ | string _ => true
  | _ => false

/-- A key that gives a name: a string or a number without a tag. -/
def IsName (key : Tree) : Prop := (∃ text, key = .string text) ∨ ∃ value, key = .number value

/-- A place that a property list cannot have: a null, or a key that is no name. -/
inductive Offends (tree : Tree) : List Nat → Prop
  | null {place : List Nat} (stands : At tree place .null) : Offends tree place
  | key {place : List Nat} {entries : Entries} {index : Nat} {key value : Tree}
      (stands : At tree place (.mapping entries)) (get : entries[index]? = some (key, value))
      (nameless : ¬ key.IsName) : Offends tree (place ++ [index, 0])

theorem name?_eq_none_iff {key : Tree} : key.name? = none ↔ ¬ key.IsName := by
  cases key <;> simp [name?, IsName]

theorem isName_of_name? {key : Tree} {name : String} (h : key.name? = some name) : key.IsName := by
  cases key with
  | string text => exact Or.inl ⟨text, rfl⟩
  | number value => exact Or.inr ⟨value, rfl⟩
  | _ => cases h

section

variable {tree inner : Tree} {place : List Nat}

theorem not_offends_of_isScalar (h : tree.isScalar = true) : ¬ tree.Offends place := by
  rintro (hat | hat)
  all_goals cases tree with
  | bool | number | string => cases hat
  | _ => cases h

theorem not_offends_of_isName (h : tree.IsName) : ¬ tree.Offends place := by
  obtain ⟨text, rfl⟩ | ⟨value, rfl⟩ := h <;> exact not_offends_of_isScalar rfl

theorem offends_sequence_iff {items : List Tree} : (sequence items).Offends place ↔
    ∃ index item rest, place = index :: rest ∧ items[index]? = some item ∧ item.Offends rest := by
  constructor
  · rintro (hat | ⟨hat, hget, hname⟩)
    · cases hat with
      | item get rest => exact ⟨_, _, _, rfl, get, .null rest⟩
    · cases hat with
      | item get rest => exact ⟨_, _, _, rfl, get, .key rest hget hname⟩
  · rintro ⟨index, item, rest, rfl, hget, hat | ⟨hat, hkey, hname⟩⟩
    · exact .null (.item hget hat)
    · exact .key (.item hget hat) hkey hname

theorem offends_tagged_iff {tag : String} {content : Tree} : (tagged tag content).Offends place ↔
    ∃ rest, place = 0 :: rest ∧ content.Offends rest := by
  constructor
  · rintro (hat | ⟨hat, hget, hname⟩)
    · cases hat with
      | content rest => exact ⟨_, rfl, .null rest⟩
    · cases hat with
      | content rest => exact ⟨_, rfl, .key rest hget hname⟩
  · rintro ⟨rest, rfl, hat | ⟨hat, hkey, hname⟩⟩
    · exact .null (.content hat)
    · exact .key (.content hat) hkey hname

/-- A mapping offends by a key that is no name, in a key, or in a value. -/
theorem offends_mapping_iff {entries : Entries} : (mapping entries).Offends place ↔
    ∃ index key value, entries[index]? = some (key, value) ∧
      ((¬ key.IsName ∧ place = [index, 0]) ∨
        (∃ rest, place = index :: 0 :: rest ∧ key.Offends rest) ∨
        ∃ rest, place = index :: 1 :: rest ∧ value.Offends rest) := by
  constructor
  · rintro (hat | ⟨hat, hget, hname⟩)
    · cases hat with
      | key get rest => exact ⟨_, _, _, get, Or.inr (Or.inl ⟨_, rfl, .null rest⟩)⟩
      | value get rest => exact ⟨_, _, _, get, Or.inr (Or.inr ⟨_, rfl, .null rest⟩)⟩
    · cases hat with
      | here => exact ⟨_, _, _, hget, Or.inl ⟨hname, rfl⟩⟩
      | key get rest => exact ⟨_, _, _, get, Or.inr (Or.inl ⟨_, rfl, .key rest hget hname⟩)⟩
      | value get rest => exact ⟨_, _, _, get, Or.inr (Or.inr ⟨_, rfl, .key rest hget hname⟩)⟩
  · rintro ⟨index, key, value, hget, ⟨hname, rfl⟩ | ⟨rest, rfl, hat | ⟨hat, hkey, hname⟩⟩ |
      ⟨rest, rfl, hat | ⟨hat, hkey, hname⟩⟩⟩
    · exact .key (.here _) hget hname
    · exact .null (.key hget hat)
    · exact .key (.key hget hat) hkey hname
    · exact .null (.value hget hat)
    · exact .key (.value hget hat) hkey hname

/-- An entry whose key is a name offends in its value; the other entries stand behind it. -/
theorem offends_mapping_cons {key value : Tree} {name : String} {entries : Entries}
    (hname : key.name? = some name) (h : (mapping ((key, value) :: entries)).Offends place) :
    (∃ rest, place = 0 :: 1 :: rest ∧ value.Offends rest) ∨
      ∃ index rest, place = (index + 1) :: rest ∧ (mapping entries).Offends (index :: rest) := by
  obtain ⟨index, other, inner, hget, hcase⟩ := offends_mapping_iff.1 h
  cases index with
  | zero =>
    cases Option.some.inj hget
    obtain ⟨hnameless, -⟩ | ⟨rest, -, hkey⟩ | hvalue := hcase
    · exact absurd (isName_of_name? hname) hnameless
    · exact absurd hkey (not_offends_of_isName (isName_of_name? hname))
    · exact Or.inl hvalue
  | succ index =>
    refine Or.inr ⟨index, place.tail, ?_, offends_mapping_iff.2 ⟨index, other, inner, hget, ?_⟩⟩
    all_goals
      obtain ⟨hnameless, rfl⟩ | ⟨rest, rfl, hkey⟩ | ⟨rest, rfl, hvalue⟩ := hcase
    · rfl
    · rfl
    · rfl
    · exact Or.inl ⟨hnameless, rfl⟩
    · exact Or.inr (Or.inl ⟨rest, rfl, hkey⟩)
    · exact Or.inr (Or.inr ⟨rest, rfl, hvalue⟩)

end

end Tree

namespace PropertyList

open HighlightGrammar.Tree

/-- What is reported of a place. It is named by the positions of items and the names of keys that
lead there, a key by the place of its mapping; a tag adds nothing. What stands below a key without
a name is not reached. -/
inductive ProblemAt : RulePath → Tree → List Nat → Problem → Prop
  | null (path : RulePath) : ProblemAt path .null [] (.nullValue path)
  | item {path : RulePath} {items : List Tree} {index : Nat} {item : Tree} {place : List Nat}
      {problem : Problem} (get : items[index]? = some item)
      (rest : ProblemAt (path.item index) item place problem) :
      ProblemAt path (.sequence items) (index :: place) problem
  | key {path : RulePath} {entries : Entries} {index : Nat} {key value : Tree}
      (get : entries[index]? = some (key, value)) (nameless : key.name? = none) :
      ProblemAt path (.mapping entries) [index, 0] (.badKey path key.describe)
  | value {path : RulePath} {entries : Entries} {index : Nat} {key value : Tree} {name : String}
      {place : List Nat} {problem : Problem} (get : entries[index]? = some (key, value))
      (named : key.name? = some name) (rest : ProblemAt (path.child name) value place problem) :
      ProblemAt path (.mapping entries) (index :: 1 :: place) problem
  | content {path : RulePath} {tag : String} {content : Tree} {place : List Nat}
      {problem : Problem} (rest : ProblemAt path content place problem) :
      ProblemAt path (.tagged tag content) (0 :: place) problem

namespace ProblemAt

variable {path : RulePath} {tree : Tree} {place : List Nat} {problem problem' : Problem}

theorem offends (h : ProblemAt path tree place problem) : tree.Offends place := by
  induction h with
  | null => exact .null (.here _)
  | item get _ ih => exact offends_sequence_iff.2 ⟨_, _, _, rfl, get, ih⟩
  | key get nameless => exact .key (.here _) get (name?_eq_none_iff.1 nameless)
  | value get _ _ ih => exact offends_mapping_iff.2 ⟨_, _, _, get, Or.inr (Or.inr ⟨_, rfl, ih⟩)⟩
  | content _ ih => exact offends_tagged_iff.2 ⟨_, rfl, ih⟩

/-- A place tells what is reported of it. -/
theorem unique (h : ProblemAt path tree place problem) (h' : ProblemAt path tree place problem') :
    problem = problem' := by
  induction h with
  | null => cases h'; rfl
  | item get _ ih =>
    cases h' with
    | item get' rest' =>
      obtain rfl := Option.some.inj (get.symm.trans get')
      exact ih rest'
  | key get _ =>
    cases h' with
    | key get' _ =>
      cases Option.some.inj (get.symm.trans get')
      rfl
  | value get named _ ih =>
    cases h' with
    | value get' named' rest' =>
      cases Option.some.inj (get.symm.trans get')
      obtain rfl := Option.some.inj (named.symm.trans named')
      exact ih rest'
  | content _ ih =>
    cases h' with
    | content rest' => exact ih rest'

theorem exists_cons {entries : Entries} (h : ProblemAt path (.mapping entries) place problem) :
    ∃ index rest, place = index :: rest := by
  cases h with
  | key => exact ⟨_, _, rfl⟩
  | value => exact ⟨_, _, rfl⟩

/-- Behind another entry the places of a mapping move up by one. -/
theorem cons {entries : Entries} {index : Nat} (e : Tree × Tree)
    (h : ProblemAt path (.mapping entries) (index :: place) problem) :
    ProblemAt path (.mapping (e :: entries)) ((index + 1) :: place) problem := by
  cases h with
  | key get nameless => exact .key get nameless
  | value get named rest => exact .value get named rest

end ProblemAt

/-- A conversion succeeds if nothing offends, and otherwise reports the first place that does. -/
def Judges {α : Type} (path : RulePath) (tree : Tree) : Except Problem α → Prop
  | .ok _ => ∀ place, ¬ tree.Offends place
  | .error problem => ∃ place, ProblemAt path tree place problem ∧
      ∀ other, tree.Offends other → InOrder place other

/-- The same of items, the first of which has a position of its own. -/
def JudgesItems {α : Type} (path : RulePath) (start : Nat) (items : List Tree) :
    Except Problem α → Prop
  | .ok _ => ∀ item ∈ items, ∀ place, ¬ item.Offends place
  | .error problem => ∃ index item place, items[index]? = some item ∧
      ProblemAt (path.item (start + index)) item place problem ∧
      ∀ position other rest, items[position]? = some other → other.Offends rest →
        InOrder (index :: place) (position :: rest)

section

variable {α β : Type} {path : RulePath} {result : Except Problem α}

theorem Judges.bind {tree : Tree} (h : Judges path tree result) (f : α → β) :
    Judges path tree (result >>= fun a => .ok (f a)) := by
  cases result with
  | ok a => exact h
  | error problem => exact h

theorem judges_sequence {items : List Tree} (h : JudgesItems path 0 items result) :
    Judges path (.sequence items) result := by
  cases result with
  | ok a =>
    intro place hoffends
    obtain ⟨index, item, rest, -, hget, hitem⟩ := offends_sequence_iff.1 hoffends
    exact h item (List.mem_of_getElem? hget) rest hitem
  | error problem =>
    obtain ⟨index, item, place, hget, hproblem, hfirst⟩ := h
    rw [Nat.zero_add] at hproblem
    refine ⟨index :: place, .item hget hproblem, fun other hoffends => ?_⟩
    obtain ⟨position, inner, rest, rfl, hinner, hrest⟩ := offends_sequence_iff.1 hoffends
    exact hfirst position inner rest hinner hrest

theorem judges_tagged {tag : String} {content : Tree} (h : Judges path content result) :
    Judges path (.tagged tag content) result := by
  cases result with
  | ok a =>
    intro place hoffends
    obtain ⟨rest, -, hrest⟩ := offends_tagged_iff.1 hoffends
    exact h rest hrest
  | error problem =>
    obtain ⟨place, hproblem, hfirst⟩ := h
    refine ⟨0 :: place, .content hproblem, fun other hoffends => ?_⟩
    obtain ⟨rest, rfl, hrest⟩ := offends_tagged_iff.1 hoffends
    exact .inside (hfirst rest hrest)

/-- The first item is converted before the others. -/
theorem judgesItems_cons {item : Tree} {items : List Tree} {start : Nat}
    {first : Except Problem PropertyList} {others : Except Problem (List PropertyList)}
    (hfirst : Judges (path.item start) item first)
    (hothers : JudgesItems path (start + 1) items others) :
    JudgesItems path start (item :: items)
      (first >>= fun a => others >>= fun as => .ok (a :: as)) := by
  cases first with
  | error problem =>
    obtain ⟨place, hproblem, hleast⟩ := hfirst
    refine ⟨0, item, place, rfl, hproblem, fun position other rest hget hoffends => ?_⟩
    cases position with
    | zero =>
      obtain rfl := Option.some.inj hget
      exact .inside (hleast rest hoffends)
    | succ position => exact .earlier (Nat.succ_pos position)
  | ok a =>
    cases others with
    | error problem =>
      obtain ⟨index, failing, place, hfailing, hproblem, hleast⟩ := hothers
      rw [Nat.add_right_comm, Nat.add_assoc] at hproblem
      refine ⟨index + 1, failing, place, hfailing, hproblem, ?_⟩
      intro position other rest hget hoffends
      cases position with
      | zero =>
        obtain rfl := Option.some.inj hget
        exact absurd hoffends (hfirst rest)
      | succ position => exact (hleast position other rest hget hoffends).succ
    | ok as => exact List.forall_mem_cons.2 ⟨hfirst, hothers⟩

theorem judges_mapping_nil (a : α) : Judges path (.mapping []) (.ok a : Except Problem α) := by
  intro place hoffends
  obtain ⟨index, key, value, hget, -⟩ := offends_mapping_iff.1 hoffends
  cases hget

/-- Nothing of a mapping stands in front of its first key. -/
theorem judges_mapping_of_nameless {key value : Tree} {entries : Entries} (h : key.name? = none) :
    Judges path (.mapping ((key, value) :: entries))
      (.error (.badKey path key.describe) : Except Problem α) := by
  refine ⟨[0, 0], .key rfl h, fun other hoffends => ?_⟩
  have hkey : ∀ index rest, InOrder [0, 0] (index :: 0 :: rest) := by
    rintro (_ | index) rest
    · exact .inside (.inside (.root rest))
    · exact .earlier (Nat.succ_pos index)
  have hvalue : ∀ index rest, InOrder [0, 0] (index :: 1 :: rest) := by
    rintro (_ | index) rest
    · exact .inside (.earlier Nat.one_pos)
    · exact .earlier (Nat.succ_pos index)
  obtain ⟨index, _, _, -, ⟨-, rfl⟩ | ⟨rest, rfl, -⟩ | ⟨rest, rfl, -⟩⟩ :=
    offends_mapping_iff.1 hoffends
  · exact hkey index []
  · exact hkey index rest
  · exact hvalue index rest

/-- The value of the first entry is converted before the other entries. -/
theorem judges_mapping_cons {key value : Tree} {name : String} {entries : Entries}
    {first : Except Problem PropertyList}
    {others : Except Problem (List (String × PropertyList))} (hname : key.name? = some name)
    (hfirst : Judges (path.child name) value first)
    (hothers : Judges path (.mapping entries) others) :
    Judges path (.mapping ((key, value) :: entries))
      (first >>= fun a => others >>= fun as => .ok ((name, a) :: as)) := by
  cases first with
  | error problem =>
    obtain ⟨place, hproblem, hleast⟩ := hfirst
    refine ⟨0 :: 1 :: place, .value rfl hname hproblem, fun other hoffends => ?_⟩
    obtain ⟨rest, rfl, hvalue⟩ | ⟨index, rest, rfl, -⟩ := offends_mapping_cons hname hoffends
    · exact .inside (.inside (hleast rest hvalue))
    · exact .earlier (Nat.succ_pos index)
  | ok a =>
    cases others with
    | error problem =>
      obtain ⟨place, hproblem, hleast⟩ := hothers
      obtain ⟨index, inner, rfl⟩ := hproblem.exists_cons
      refine ⟨(index + 1) :: inner, hproblem.cons _, fun other hoffends => ?_⟩
      obtain ⟨rest, rfl, hvalue⟩ | ⟨position, rest, rfl, hrest⟩ :=
        offends_mapping_cons hname hoffends
      · exact absurd hvalue (hfirst rest)
      · exact (hleast _ hrest).succ
    | ok as =>
      intro place hoffends
      obtain ⟨rest, -, hvalue⟩ | ⟨position, rest, -, hrest⟩ :=
        offends_mapping_cons hname hoffends
      · exact hfirst rest hvalue
      · exact hothers _ hrest

end

mutual

theorem judges_ofTreeAt (path : RulePath) (tree : Tree) :
    Judges path tree (ofTreeAt path tree) := by
  match tree with
  | .null => exact ⟨[], .null path, fun other _ => .root other⟩
  | .bool _ => exact fun _ => not_offends_of_isScalar rfl
  | .number (.int _) => exact fun _ => not_offends_of_isScalar rfl
  | .number (.float _) => exact fun _ => not_offends_of_isScalar rfl
  | .string _ => exact fun _ => not_offends_of_isScalar rfl
  | .sequence items => exact (judges_sequence (judgesItems_itemsOfTrees path 0 items)).bind _
  | .mapping entries => exact (judges_entriesOfTrees path entries).bind _
  | .tagged _ content => exact judges_tagged (judges_ofTreeAt path content)

theorem judgesItems_itemsOfTrees (path : RulePath) (start : Nat) (items : List Tree) :
    JudgesItems path start items (itemsOfTrees path start items) := by
  match items with
  | [] => exact nofun
  | item :: items =>
    exact judgesItems_cons (judges_ofTreeAt _ item) (judgesItems_itemsOfTrees path _ items)

theorem judges_entriesOfTrees (path : RulePath) (entries : Entries) :
    Judges path (.mapping entries) (entriesOfTrees path entries) := by
  match entries with
  | [] => exact judges_mapping_nil _
  | (key, value) :: entries =>
    rw [entriesOfTrees]
    cases hname : key.name? with
    | none => exact judges_mapping_of_nameless hname
    | some name =>
      exact judges_mapping_cons hname (judges_ofTreeAt _ value) (judges_entriesOfTrees path entries)

end

theorem exists_ofTree_iff {tree : Tree} :
    (∃ list, ofTree tree = .ok list) ↔ ∀ place, ¬ tree.Offends place := by
  have hjudges := judges_ofTreeAt .root tree
  rw [ofTree]
  cases h : ofTreeAt .root tree with
  | ok list =>
    rw [h] at hjudges
    exact ⟨fun _ => hjudges, fun _ => ⟨list, rfl⟩⟩
  | error problem =>
    rw [h] at hjudges
    obtain ⟨place, hproblem, -⟩ := hjudges
    exact ⟨nofun, fun hnone => absurd hproblem.offends (hnone place)⟩

theorem ofTree_eq_error_iff {tree : Tree} {problem : Problem} :
    ofTree tree = .error problem ↔ ∃ place, ProblemAt .root tree place problem ∧
      ∀ other, tree.Offends other → InOrder place other := by
  have hjudges := judges_ofTreeAt .root tree
  constructor
  · intro h
    rw [← ofTree, h] at hjudges
    exact hjudges
  · rintro ⟨place, hproblem, hfirst⟩
    rw [ofTree]
    cases h : ofTreeAt .root tree with
    | ok list =>
      rw [h] at hjudges
      exact absurd hproblem.offends (hjudges place)
    | error reported =>
      rw [h] at hjudges
      -- Two first places are one place, of which one problem is reported.
      obtain ⟨least, hreported, hleast⟩ := hjudges
      obtain rfl := (hleast place hproblem.offends).antisymm (hfirst least hreported.offends)
      rw [hreported.unique hproblem]

/-- A tree is converted if no null stands in it, under tags or elsewhere, and all keys of all
mappings in it are strings or numbers without a tag. Otherwise the first place in the order of the
document that offends is reported, with the path that leads there and the kind of the key. -/
theorem ofTree_reports_first (tree : Tree) :
    ((∃ list, ofTree tree = .ok list) ↔
      (∀ place, ¬ At tree place .null) ∧
        ∀ place entries, At tree place (.mapping entries) → ∀ e ∈ entries, e.1.IsName) ∧
    ∀ problem, ofTree tree = .error problem ↔
      ∃ place, tree.Offends place ∧ (∀ other, tree.Offends other → InOrder place other) ∧
        ProblemAt .root tree place problem := by
  constructor
  · rw [exists_ofTree_iff]
    constructor
    · intro hnone
      refine ⟨fun place hnull => hnone place (.null hnull), fun place entries hat e he => ?_⟩
      obtain ⟨index, hindex, rfl⟩ := List.getElem_of_mem he
      by_cases hname : entries[index].1.IsName
      · exact hname
      · exact absurd (.key hat (List.getElem?_eq_getElem hindex) hname) (hnone _)
    · rintro ⟨hnull, hnames⟩ place (hat | ⟨hat, hget, hnameless⟩)
      · exact hnull place hat
      · exact hnameless (hnames _ _ hat _ (List.mem_of_getElem? hget))
  · intro problem
    rw [ofTree_eq_error_iff]
    constructor
    · rintro ⟨place, hproblem, hfirst⟩
      exact ⟨place, hproblem.offends, hfirst, hproblem⟩
    · rintro ⟨place, -, hfirst, hproblem⟩
      exact ⟨place, hproblem, hfirst⟩

/-- The null in a value stands in front of the key behind it. -/
example : ofTree (.mapping [(.string "a", .tagged "!t" (.sequence [.bool true, .null])),
    (.null, .string "b")]) = .error (.nullValue ⟨["a", "1"]⟩) := by rfl

end PropertyList

end HighlightGrammar

import HighlightGrammar.Proofs.Documents.Rewriting
import HighlightGrammar.Proofs.Encoding.Offences

/-!
# What a property list keeps

A property list keeps a tree if it says everywhere what the tree says, tags aside. A dictionary has
one entry to a name, and two keys of a mapping may have one name, a string and a number that is
written like it. The property list of a tree keeps it exactly when this happens nowhere. -/
namespace HighlightGrammar

namespace Tree

/-- No two keys of one mapping have the same name, at any place. -/
def NamedApart (tree : Tree) : Prop :=
  ∀ place (entries : Entries), At tree place (.mapping entries) → entries.DistinctNames

theorem namedApart_of_isScalar {tree : Tree} (h : tree.isScalar = true) : tree.NamedApart := by
  intro place entries hat
  cases hat <;> cases h

theorem namedApart_bool (value : Bool) : (bool value).NamedApart := namedApart_of_isScalar rfl

theorem namedApart_number (value : Number) : (number value).NamedApart := namedApart_of_isScalar rfl

theorem namedApart_string (text : String) : (string text).NamedApart := namedApart_of_isScalar rfl

theorem namedApart_of_isName {key : Tree} (h : key.IsName) : key.NamedApart := by
  obtain ⟨text, rfl⟩ | ⟨value, rfl⟩ := h
  · exact namedApart_string text
  · exact namedApart_number value

theorem namedApart_sequence_iff {items : List Tree} :
    (sequence items).NamedApart ↔ ∀ item ∈ items, item.NamedApart := by
  constructor
  · intro h item hitem place entries hat
    obtain ⟨index, hindex, rfl⟩ := List.getElem_of_mem hitem
    exact h _ entries (.item (List.getElem?_eq_getElem hindex) hat)
  · intro h place entries hat
    cases hat with
    | item get rest => exact h _ (List.mem_of_getElem? get) _ entries rest

theorem namedApart_tagged_iff {tag : String} {content : Tree} :
    (tagged tag content).NamedApart ↔ content.NamedApart := by
  constructor
  · exact fun h place entries hat => h _ entries (.content hat)
  · intro h place entries hat
    cases hat with
    | content rest => exact h _ entries rest

theorem namedApart_mapping_iff {entries : Entries} : (mapping entries).NamedApart ↔
    entries.DistinctNames ∧ ∀ e ∈ entries, e.1.NamedApart ∧ e.2.NamedApart := by
  constructor
  · intro h
    refine ⟨h [] entries (.here _), fun e he => ?_⟩
    obtain ⟨index, hindex, rfl⟩ := List.getElem_of_mem he
    have hget := List.getElem?_eq_getElem hindex
    exact ⟨fun place inner hat => h _ inner (.key hget hat),
      fun place inner hat => h _ inner (.value hget hat)⟩
  · rintro ⟨hnames, hparts⟩ place inner hat
    cases hat with
    | here => exact hnames
    | key get rest => exact (hparts _ (List.mem_of_getElem? get)).1 _ inner rest
    | value get rest => exact (hparts _ (List.mem_of_getElem? get)).2 _ inner rest

end Tree

namespace PropertyList

open HighlightGrammar.Tree Decimal

/-- A property list says what a tree says, tags aside: scalars are kept, an array has the items of
the sequence, and a dictionary has the entries of the mapping under the names of their keys, one to
one and in their order. -/
inductive Keeps : Tree → PropertyList → Prop
  | boolean (value : Bool) : Keeps (.bool value) (.boolean value)
  | integer (value : Int) : Keeps (.number (.int value)) (.integer value)
  | real (value : Binary64) : Keeps (.number (.float value)) (.real value)
  | string (text : String) : Keeps (.string text) (.string text)
  | array {items : List Tree} {lists : List PropertyList} (each : List.Forall₂ Keeps items lists) :
      Keeps (.sequence items) (.array lists)
  | dictionary {entries : Entries} {named : List (String × PropertyList)}
      (names : entries.map (fun e => e.1.name?) = named.map fun e => some e.1)
      (values : List.Forall₂ Keeps (entries.map Prod.snd) (named.map Prod.snd)) :
      Keeps (.mapping entries) (.dictionary named)
  | content {tag : String} {content : Tree} {list : PropertyList} (rest : Keeps content list) :
      Keeps (.tagged tag content) list

theorem keeps_mapping_iff {entries : Entries} {named : List (String × PropertyList)} :
    Keeps (.mapping entries) (.dictionary named) ↔
      entries.map (fun e => e.1.name?) = named.map (fun e => some e.1) ∧
        List.Forall₂ Keeps (entries.map Prod.snd) (named.map Prod.snd) := by
  constructor
  · rintro (_ | _ | _ | _ | _ | ⟨names, values⟩)
    exact ⟨names, values⟩
  · rintro ⟨names, values⟩
    exact .dictionary names values

theorem keeps_sequence_iff {items : List Tree} {lists : List PropertyList} :
    Keeps (.sequence items) (.array lists) ↔ List.Forall₂ Keeps items lists := by
  constructor
  · rintro (_ | _ | _ | _ | each)
    exact each
  · exact .array

theorem keeps_tagged_iff {tag : String} {content : Tree} {list : PropertyList} :
    Keeps (.tagged tag content) list ↔ Keeps content list := by
  constructor
  · intro h
    cases h with
    | content rest => exact rest
  · exact .content

/-- The names of a mapping that is converted entry by entry. -/
theorem names_of_map_name? {entries : Entries} {named : List (String × PropertyList)}
    (h : entries.map (fun e => e.1.name?) = named.map fun e => some e.1) :
    entries.names = named.map Prod.fst := by
  calc entries.names = (entries.map fun e => e.1.name?).filterMap id := by
        rw [Entries.names, List.filterMap_map]
        rfl
    _ = named.filterMap fun e => some e.1 := by
        rw [h, List.filterMap_map]
        rfl
    _ = named.map Prod.fst := congrFun List.filterMap_eq_map named

/-- A dictionary has the names of all entries when no name comes twice, and only then. -/
theorem keeps_ofList_iff {entries : Entries} {named : List (String × PropertyList)}
    (h : entries.map (fun e => e.1.name?) = named.map fun e => some e.1) :
    Keeps (.mapping entries) (.dictionary (Table.ofList (· == ·) named)) ↔
      entries.DistinctNames ∧ List.Forall₂ Keeps (entries.map Prod.snd) (named.map Prod.snd) := by
  have hnames := names_of_map_name? h
  rw [keeps_mapping_iff, Entries.DistinctNames, hnames]
  constructor
  · rintro ⟨hkept, hvalues⟩
    have hnodup : (named.map Prod.fst).Nodup := by
      rw [← hnames, names_of_map_name? hkept]
      exact Table.nodup_keys_putAll List.nodup_nil
    rw [Table.ofList_of_nodup hnodup] at hvalues
    exact ⟨hnodup, hvalues⟩
  · rintro ⟨hnodup, hvalues⟩
    rw [Table.ofList_of_nodup hnodup]
    exact ⟨h, hvalues⟩

mutual

theorem keeps_ofTreeAt_iff (path : RulePath) (tree : Tree) {list : PropertyList}
    (h : ofTreeAt path tree = .ok list) : Keeps tree list ↔ tree.NamedApart := by
  match tree with
  | .null => cases h
  | .bool value =>
    cases h
    exact ⟨fun _ => namedApart_bool value, fun _ => .boolean value⟩
  | .number (.int value) =>
    cases h
    exact ⟨fun _ => namedApart_number _, fun _ => .integer value⟩
  | .number (.float value) =>
    cases h
    exact ⟨fun _ => namedApart_number _, fun _ => .real value⟩
  | .string text =>
    cases h
    exact ⟨fun _ => namedApart_string text, fun _ => .string text⟩
  | .sequence items =>
    obtain ⟨lists, hlists, hlist⟩ := bind_eq_ok_iff.1 h
    cases hlist
    rw [keeps_sequence_iff, namedApart_sequence_iff]
    exact keeps_itemsOfTrees_iff path 0 items hlists
  | .mapping entries =>
    obtain ⟨named, hnamed, hlist⟩ := bind_eq_ok_iff.1 h
    cases hlist
    obtain ⟨hnames, hvalues⟩ := keeps_entriesOfTrees_iff path entries hnamed
    rw [keeps_ofList_iff hnames, namedApart_mapping_iff, hvalues]
  | .tagged tag content =>
    rw [keeps_tagged_iff, namedApart_tagged_iff]
    exact keeps_ofTreeAt_iff path content h

theorem keeps_itemsOfTrees_iff (path : RulePath) (start : Nat) (items : List Tree)
    {lists : List PropertyList} (h : itemsOfTrees path start items = .ok lists) :
    List.Forall₂ Keeps items lists ↔ ∀ item ∈ items, item.NamedApart := by
  match items with
  | [] =>
    cases h
    exact ⟨fun _ => nofun, fun _ => .nil⟩
  | item :: items =>
    obtain ⟨list, hlist, hrest⟩ := bind_eq_ok_iff.1 h
    obtain ⟨lists, hlists, heq⟩ := bind_eq_ok_iff.1 hrest
    cases heq
    rw [List.forall₂_cons, List.forall_mem_cons, keeps_ofTreeAt_iff _ item hlist,
      keeps_itemsOfTrees_iff path _ items hlists]

theorem keeps_entriesOfTrees_iff (path : RulePath) (entries : Entries)
    {named : List (String × PropertyList)} (h : entriesOfTrees path entries = .ok named) :
    entries.map (fun e => e.1.name?) = named.map (fun e => some e.1) ∧
      (List.Forall₂ Keeps (entries.map Prod.snd) (named.map Prod.snd) ↔
        ∀ e ∈ entries, e.1.NamedApart ∧ e.2.NamedApart) := by
  match entries with
  | [] =>
    cases h
    exact ⟨rfl, fun _ => nofun, fun _ => .nil⟩
  | (key, value) :: entries =>
    rw [entriesOfTrees] at h
    cases hname : key.name? with
    | none =>
      rw [hname] at h
      cases h
    | some name =>
      rw [hname] at h
      obtain ⟨list, hlist, hrest⟩ := bind_eq_ok_iff.1 h
      obtain ⟨named, hnamed, heq⟩ := bind_eq_ok_iff.1 hrest
      cases heq
      obtain ⟨hnames, hvalues⟩ := keeps_entriesOfTrees_iff path entries hnamed
      have hkey : key.NamedApart := namedApart_of_isName (isName_of_name? hname)
      constructor
      · rw [List.map_cons, List.map_cons, hname, hnames]
      · rw [List.map_cons, List.map_cons, List.forall₂_cons, List.forall_mem_cons,
          keeps_ofTreeAt_iff _ value hlist, hvalues]
        exact ⟨fun ⟨hvalue, hothers⟩ => ⟨⟨hkey, hvalue⟩, hothers⟩,
          fun ⟨⟨_, hvalue⟩, hothers⟩ => ⟨hvalue, hothers⟩⟩

end

/-- The property list of a tree keeps all that the tree says, at every depth, exactly when no mapping
in the tree has two keys with one name. -/
theorem keeps_iff_namedApart {tree : Tree} {list : PropertyList} (h : ofTree tree = .ok list) :
    Keeps tree list ↔ tree.NamedApart :=
  keeps_ofTreeAt_iff .root tree h

/-- Keys of both kinds, one mapping behind a tag, and the largest integer. -/
def numberedCaptures : Tree := .mapping [
  (.string "captures", .tagged "!t" (.mapping [
    (.number (.int 0), .mapping [(.string "name", .string "a")]),
    (.string "1", .sequence [.bool true, .number (.int 18446744073709551615)])])),
  (.string "0", .mapping [])]

theorem keeps_iff_namedApart_numberedCaptures :
    ofTree numberedCaptures = .ok (.dictionary [
      ("captures", .dictionary [
        ("0", .dictionary [("name", .string "a")]),
        ("1", .array [.boolean true, .integer 18446744073709551615])]),
      ("0", .dictionary [])]) ∧
    Keeps numberedCaptures (.dictionary [
      ("captures", .dictionary [
        ("0", .dictionary [("name", .string "a")]),
        ("1", .array [.boolean true, .integer 18446744073709551615])]),
      ("0", .dictionary [])]) := by
  have hapart : numberedCaptures.NamedApart := by
    simp only [numberedCaptures, namedApart_mapping_iff, namedApart_sequence_iff,
      namedApart_tagged_iff, namedApart_string, namedApart_number, namedApart_bool,
      List.forall_mem_cons, List.not_mem_nil, false_imp_iff, implies_true, and_true, true_and]
    decide +kernel
  have hread : ofTree numberedCaptures = .ok _ := rfl
  exact ⟨hread, (keeps_iff_namedApart hread).2 hapart⟩

/-- Two keys that are not the same and have one name. -/
def twoZeros : Tree := .mapping [(.string "0", .string "a"), (.number (.int 0), .string "b")]

/-- An entry is lost where a string and a number stand for one name. -/
theorem not_keeps_twoZeros : ¬ ∀ (tree : Tree) (list : PropertyList), tree.wellKeyed = true →
    ofTree tree = .ok list → Keeps tree list := by
  intro h
  have hkeeps := h twoZeros (.dictionary [("0", .string "b")]) (by decide +kernel) rfl
  have hlengths := congrArg List.length (keeps_mapping_iff.1 hkeeps).1
  cases hlengths

end PropertyList

end HighlightGrammar

import HighlightGrammar.Proofs.Rules.RuleEntries
import HighlightGrammar.Proofs.Trees.Reordering

/-!
# Reading what was written

A rule that was read from a tree, with its patterns revised in any way, is written as a tree that is
read as the same rule. The entries that are written are understood as they were, one by one; adding
them up fills the same fields in the same order, and a kind is told by the fields that are filled.
-/
namespace HighlightGrammar

namespace RuleDraft

def mapPatterns (f : PatternField → String → String) (draft : RuleDraft) : RuleDraft where
  slots := mapTexts f draft.slots
  target := draft.target
  patterns := draft.patterns.map (List.map (Rule.mapPatterns f))
  repository := draft.repository.map (RuleMap.mapPatterns f)
  captures := draft.captures.map fun e => (e.1, RuleMap.mapPatterns f e.2)
  attributes := draft.attributes

variable (f : PatternField → String → String)

theorem Sound.mapPatterns {draft : RuleDraft} (h : draft.Sound) : (draft.mapPatterns f).Sound := by
  obtain ⟨hslots, hcaptures, hattributes⟩ := h
  refine ⟨?_, ?_, hattributes⟩
  · rw [RuleDraft.mapPatterns, mapTexts, List.map_map]
    exact hslots
  · rw [RuleDraft.mapPatterns, List.map_map]
    exact hcaptures

theorem slot?_mapPatterns (draft : RuleDraft) (field : PatternField) :
    (draft.mapPatterns f).slot? field = (draft.slot? field).map (f field) := by
  obtain ⟨slots, target, patterns, repository, captures, attributes⟩ := draft
  simp only [slot?, mapPatterns]
  induction slots with
  | nil => rfl
  | cons e slots ih =>
    obtain ⟨key, text⟩ := e
    by_cases hkey : key = field
    · subst hkey
      simp [mapTexts, Table.get?]
    · simpa [mapTexts, Table.get?, hkey] using ih

theorem kind_mapPatterns (draft : RuleDraft) :
    (draft.mapPatterns f).kind = draft.kind.mapPatterns f := by
  have htarget : (draft.mapPatterns f).target = draft.target := rfl
  unfold kind
  rw [slot?_mapPatterns, slot?_mapPatterns, slot?_mapPatterns, slot?_mapPatterns, htarget]
  cases draft.target <;> cases draft.slot? .beginPattern <;> cases draft.slot? .matchPattern <;> rfl

theorem leftover_mapPatterns (draft : RuleDraft) :
    (draft.mapPatterns f).leftover = mapTexts f draft.leftover := by
  have hheld : heldBy (draft.kind.mapPatterns f) = heldBy draft.kind := by
    cases draft.kind <;> rfl
  rw [leftover, leftover, kind_mapPatterns, hheld, mapTexts, List.map_filterMap]
  refine List.filterMap_congr fun field _ => ?_
  rw [slot?_mapPatterns]
  cases draft.slot? field <;> rfl

/-- A revised draft stands for the revised rule. -/
theorem finish_mapPatterns (draft : RuleDraft) :
    (draft.mapPatterns f).finish = draft.finish.mapPatterns f := by
  rw [Rule.mapPatterns_eq, finish, kind_mapPatterns, leftover_mapPatterns]
  rfl

variable {f}

theorem kind_congr {draft other : RuleDraft} (htarget : draft.target = other.target)
    (hslots : ∀ field, draft.slot? field = other.slot? field) : draft.kind = other.kind := by
  rw [kind, kind, htarget, hslots, hslots, hslots, hslots]

theorem leftover_congr {draft other : RuleDraft} (htarget : draft.target = other.target)
    (hslots : ∀ field, draft.slot? field = other.slot? field) :
    draft.leftover = other.leftover := by
  rw [leftover, leftover, kind_congr htarget hslots]
  exact List.filterMap_congr fun field _ => by rw [hslots]

theorem foldl_addEntry_other (draft : RuleDraft) (es : Entries) :
    (es.map fun e => RuleEntry.other e.1 e.2).foldl addEntry draft =
      { draft with attributes := Table.putAll Tree.same draft.attributes es } := by
  induction es generalizing draft with
  | nil => rfl
  | cons e es ih => exact ih (draft.addEntry (.other e.1 e.2))

theorem foldl_addEntry_pattern (draft : RuleDraft) (texts : List (PatternField × String)) :
    (texts.map fun e => RuleEntry.pattern e.1 e.2).foldl addEntry draft =
      { draft with slots := Table.putAll (· == ·) draft.slots texts } := by
  induction texts generalizing draft with
  | nil => rfl
  | cons e texts ih => exact ih (draft.addEntry (.pattern e.1 e.2))

theorem foldl_addEntry_captures (draft : RuleDraft) (captures : List (CaptureField × RuleMap)) :
    (captures.map fun e => RuleEntry.captures e.1 e.2).foldl addEntry draft =
      { draft with captures := Table.putAll (· == ·) draft.captures captures } := by
  induction captures generalizing draft with
  | nil => rfl
  | cons e captures ih => exact ih (draft.addEntry (.captures e.1 e.2))

end RuleDraft

namespace Rule

/-- The draft that the fields of a rule fill. -/
def toDraft (rule : Rule) : RuleDraft where
  slots := rule.kind.patterns ++ rule.extra
  target := rule.kind.target?
  patterns := rule.patterns
  repository := rule.repository
  captures := rule.captures
  attributes := rule.attributes

theorem sound_toDraft_finish {draft : RuleDraft} (h : draft.Sound) :
    draft.finish.toDraft.Sound := by
  refine ⟨?_, h.captures, h.attributes⟩
  have hperm := RuleDraft.patterns_kind_append_leftover_perm h
  exact (hperm.map Prod.fst).nodup_iff.2 h.slots

/-- A rule of a finished draft fills a draft that stands for the same rule. -/
theorem finish_toDraft_finish {draft : RuleDraft} (h : draft.Sound) :
    draft.finish.toDraft.finish = draft.finish := by
  have htarget : draft.finish.toDraft.target = draft.target := RuleDraft.target?_kind draft
  have hslots : ∀ field, draft.finish.toDraft.slot? field = draft.slot? field := by
    intro field
    have hperm := RuleDraft.patterns_kind_append_leftover_perm h
    refine Option.ext fun text => ?_
    rw [RuleDraft.slot?, RuleDraft.slot?, Table.get?_eq_some_iff (sound_toDraft_finish h).slots,
      Table.get?_eq_some_iff h.slots]
    exact hperm.mem_iff
  rw [RuleDraft.finish, RuleDraft.kind_congr htarget hslots,
    RuleDraft.leftover_congr htarget hslots]
  rfl

/-- Adding up the entries of a rule fills its fields. -/
theorem foldl_entries {rule : Rule} (h : rule.toDraft.Sound) :
    rule.entries.foldl RuleDraft.addEntry .empty = rule.toDraft := by
  obtain ⟨kind, extra, patterns, repository, captures, attributes⟩ := rule
  obtain ⟨hslots, hcaptures, hattributes⟩ := h
  have hkind : Table.putAll (· == ·) [] kind.patterns = kind.patterns := by
    rw [toDraft, List.map_append] at hslots
    exact Table.ofList_of_nodup hslots.of_append_left
  have hextra : Table.putAll (· == ·) kind.patterns extra = kind.patterns ++ extra :=
    Table.putAll_of_nodup hslots
  have hcaps : Table.putAll (· == ·) [] captures = captures := Table.ofList_of_nodup hcaptures
  have hattrs : Table.putAll Tree.same [] attributes = attributes := by
    have hfresh : Entries.DistinctKeys ([] ++ attributes) := hattributes
    exact Table.putAll_of_fresh hfresh
  -- The fields are filled piece by piece, and a piece with new keys is appended.
  simp only [entries, fields, List.foldl_append, RuleDraft.foldl_addEntry_other,
    RuleDraft.foldl_addEntry_pattern, RuleDraft.foldl_addEntry_captures]
  cases htarget : kind.target? <;> cases patterns <;> cases repository <;>
    simp [toDraft, RuleDraft.empty, RuleDraft.addEntry, hkind, hextra, hcaps, hattrs, htarget]

/-- A tree is read as the same rule after its rule has been revised and written. -/
def Rereads (f : PatternField → String → String) (tree : Tree) : Prop :=
  tree.wellKeyed = true → ofTree ((ofTree tree).mapPatterns f).toTree = (ofTree tree).mapPatterns f

variable {f : PatternField → String → String}

theorem itemsOf?_itemTrees {rules : List Rule} (h : ∀ rule ∈ rules, ofTree rule.toTree = rule) :
    itemsOf? (.sequence (itemTrees rules)) = some rules := by
  refine itemsOf?_eq_some_iff.2 ⟨_, rfl, ?_⟩
  rw [itemTrees_eq_map, List.map_map]
  exact List.map_congr_left h |>.trans (List.map_id _)

theorem mapOf?_namedTrees {rules : RuleMap} (hnodup : (rules.map Prod.fst).Nodup)
    (h : ∀ e ∈ rules, ofTree e.2.toTree = e.2) :
    mapOf? (.mapping (namedTrees rules)) = some rules := by
  have hnamed : allNamed (namedTrees rules) = true := by
    simp [namedTrees_eq_map, allNamed, Tree.name?]
  have hread : readNamed (namedTrees rules) = rules := by
    rw [readNamed_eq_map hnamed, namedTrees_eq_map, List.map_map]
    refine (List.map_congr_left fun e he => ?_).trans (List.map_id _)
    simp [Tree.name?, h e he]
  refine mapOf?_eq_some_iff.2 ⟨_, rfl, hnamed, ?_⟩
  rw [hread]
  exact Table.ofList_of_nodup hnodup

theorem exists_inside_of_itemsOf? {value : Tree} {rules : List Rule}
    (hread : itemsOf? value = some rules) {rule : Rule} (hrule : rule ∈ rules) :
    ∃ inner, Tree.Inside inner value ∧ ofTree inner = rule := by
  obtain ⟨items, rfl, rfl⟩ := itemsOf?_eq_some_iff.1 hread
  obtain ⟨item, hitem, rfl⟩ := List.mem_map.1 hrule
  exact ⟨item, .item hitem, rfl⟩

/-- Rules of a map may have been replaced, but each one that is left was read from a value. -/
theorem exists_inside_of_mapOf? {value : Tree} {rules : RuleMap} (hread : mapOf? value = some rules)
    {e : String × Rule} (he : e ∈ rules) : ∃ inner, Tree.Inside inner value ∧ ofTree inner = e.2 := by
  obtain ⟨entries, rfl, hnamed, rfl⟩ := mapOf?_eq_some_iff.1 hread
  rcases Table.mem_putAll he with he | he
  · cases he
  · rw [readNamed_eq_map hnamed, List.map_map] at he
    obtain ⟨entry, hentry, hvalue⟩ := List.mem_map.1 he
    exact ⟨entry.2, .of_mem hentry, hvalue⟩

theorem nodup_names_of_mapOf? {value : Tree} {rules : RuleMap}
    (hread : mapOf? value = some rules) : (rules.map Prod.fst).Nodup := by
  obtain ⟨entries, rfl, -, rfl⟩ := mapOf?_eq_some_iff.1 hread
  exact Table.nodup_keys_putAll List.nodup_nil

theorem itemsOf?_mapPatterns {value : Tree} {rules : List Rule}
    (hread : itemsOf? value = some rules) (hkeys : value.wellKeyed = true)
    (ih : ∀ inner, Tree.Inside inner value → Rereads f inner) :
    itemsOf? (.sequence (itemTrees (rules.map (mapPatterns f)))) =
      some (rules.map (mapPatterns f)) := by
  refine itemsOf?_itemTrees fun rule hrule => ?_
  obtain ⟨read, hmem, rfl⟩ := List.mem_map.1 hrule
  obtain ⟨inner, hinside, rfl⟩ := exists_inside_of_itemsOf? hread hmem
  exact ih inner hinside (hinside.wellKeyed hkeys)

/-- The rules of a map are read again, also where two keys had one name. -/
theorem mapOf?_mapPatterns {value : Tree} {rules : RuleMap} (hread : mapOf? value = some rules)
    (hkeys : value.wellKeyed = true) (ih : ∀ inner, Tree.Inside inner value → Rereads f inner) :
    mapOf? (.mapping (namedTrees (rules.mapPatterns f))) = some (rules.mapPatterns f) := by
  refine mapOf?_namedTrees ?_ fun e he => ?_
  · rw [RuleMap.mapPatterns, List.map_map]
    exact nodup_names_of_mapOf? hread
  · obtain ⟨read, hmem, rfl⟩ := List.mem_map.1 he
    obtain ⟨inner, hinside, hrule⟩ := exists_inside_of_mapOf? hread hmem
    have hreread := ih inner hinside (hinside.wellKeyed hkeys)
    rw [hrule] at hreread
    exact hreread

end Rule

namespace RuleEntry

/-- What an entry says about the value that it was read from. -/
def Holds (key value : Tree) : RuleEntry → Prop
  | other k v => k = key ∧ v = value
  | pattern _ text => value = .string text
  | target text => value = .string text
  | captures _ rules => Rule.mapOf? value = some rules
  | items rules => Rule.itemsOf? value = some rules
  | named rules => Rule.mapOf? value = some rules

theorem holds_ofTree (key value : Tree) : (ofTree key value).Holds key value := by
  unfold ofTree
  split
  · split
    · rfl
    · rfl
    · next hread => exact hread
    · next hread => exact hread
    · next hread => exact hread
    · exact ⟨rfl, rfl⟩
  · exact ⟨rfl, rfl⟩

/-- The rules of an entry are read again. -/
def Readable : RuleEntry → Prop
  | captures _ rules => Rule.mapOf? (.mapping (Rule.namedTrees rules)) = some rules
  | items rules => Rule.itemsOf? (.sequence (Rule.itemTrees rules)) = some rules
  | named rules => Rule.mapOf? (.mapping (Rule.namedTrees rules)) = some rules
  | _ => True

theorem ofTree_toEntry {entry : RuleEntry} (h : entry.Readable)
    (hfield : ∀ key value, entry = other key value → ofTree key value = other key value) :
    ofTree entry.toEntry.1 entry.toEntry.2 = entry := by
  cases entry with
  | other key value => exact hfield key value rfl
  | pattern field text =>
    have hrole : FieldRole.of _ = .pattern field := FieldRole.of_key rfl
    rw [toEntry, ofTree_string, hrole]
  | target text =>
    have hrole : FieldRole.of _ = .includeTarget := FieldRole.of_key rfl
    rw [toEntry, ofTree_string, hrole]
  | captures field rules =>
    have hrole : FieldRole.of _ = .captures field := FieldRole.of_key rfl
    have hread : Rule.mapOf? (.mapping (Rule.namedTrees rules)) = some rules := h
    rw [toEntry, ofTree_string, hrole, hread]
  | items rules =>
    have hrole : FieldRole.of _ = .patterns := FieldRole.of_key rfl
    have hread : Rule.itemsOf? (.sequence (Rule.itemTrees rules)) = some rules := h
    rw [toEntry, ofTree_string, hrole, hread]
  | named rules =>
    have hrole : FieldRole.of _ = .repository := FieldRole.of_key rfl
    have hread : Rule.mapOf? (.mapping (Rule.namedTrees rules)) = some rules := h
    rw [toEntry, ofTree_string, hrole, hread]

variable {f : PatternField → String → String}

theorem readable_mapPatterns {key value : Tree} {entry : RuleEntry} (h : entry.Holds key value)
    (hkeys : value.wellKeyed = true)
    (ih : ∀ inner, Tree.Inside inner value → Rule.Rereads f inner) :
    (entry.mapPatterns f).Readable := by
  cases entry with
  | captures field rules => exact Rule.mapOf?_mapPatterns h hkeys ih
  | items rules => exact Rule.itemsOf?_mapPatterns h hkeys ih
  | named rules => exact Rule.mapOf?_mapPatterns h hkeys ih
  | _ => trivial

/-- An entry of a rule is understood as it was after it has been revised and written. -/
theorem ofTree_toEntry_mapPatterns {key value : Tree} (hkeys : value.wellKeyed = true)
    (ih : ∀ inner, Tree.Inside inner value → Rule.Rereads f inner) :
    ofTree ((ofTree key value).mapPatterns f).toEntry.1
      ((ofTree key value).mapPatterns f).toEntry.2 = (ofTree key value).mapPatterns f := by
  have hholds := holds_ofTree key value
  refine ofTree_toEntry (readable_mapPatterns hholds hkeys ih) fun k v hother => ?_
  cases hentry : ofTree key value with
  | other k' v' =>
    rw [hentry] at hother hholds
    obtain ⟨rfl, rfl⟩ := hholds
    cases hother
    exact hentry
  | _ => rw [hentry] at hother; cases hother

end RuleEntry

namespace Rule

variable {f : PatternField → String → String}

/-- Every tree is read as the same rule after its rule has been revised and written. -/
theorem rereads (tree : Tree) : Rereads f tree := by
  induction tree using Tree.ruleInduction with
  | other tree h =>
    intro _
    cases tree with
    | mapping es => exact absurd rfl (h es)
    | _ => rfl
  | mapping es ih =>
    intro hkeys
    have hdistinct := Tree.distinctKeys_of_wellKeyed hkeys
    have hperm := entries_ofTree_perm hdistinct
    have hentries : ∀ entry ∈ ((ofTree (.mapping es)).mapPatterns f).entries,
        RuleEntry.ofTree entry.toEntry.1 entry.toEntry.2 = entry := by
      intro entry hentry
      rw [entries_mapPatterns] at hentry
      obtain ⟨read, hread, rfl⟩ := List.mem_map.1 hentry
      obtain ⟨e, he, rfl⟩ := List.mem_map.1 (hperm.mem_iff.1 hread)
      exact RuleEntry.ofTree_toEntry_mapPatterns (Tree.wellKeyed_of_mem_entries hkeys he) (ih e he)
    have hdraft : (ofTree (.mapping es)).mapPatterns f =
        (((es.map fun e => RuleEntry.ofTree e.1 e.2).foldl RuleDraft.addEntry
          .empty).mapPatterns f).finish := by
      rw [RuleDraft.finish_mapPatterns, ← RuleDraft.readEntries_eq_foldl]
      rfl
    have hsound := (RuleDraft.sound_empty.foldl_addEntry
      (es.map fun e => RuleEntry.ofTree e.1 e.2)).mapPatterns f
    have hread : (((ofTree (.mapping es)).mapPatterns f).entries.map RuleEntry.toEntry).map
        (fun e => RuleEntry.ofTree e.1 e.2) = ((ofTree (.mapping es)).mapPatterns f).entries := by
      rw [List.map_map]
      exact (List.map_congr_left hentries).trans (List.map_id _)
    rw [toTree_mapPatterns f (kind_ofTree_mapping es) hperm
      (RuleEntry.distinctKeys_ofTree hdistinct), ofTree, RuleDraft.readEntries_eq_foldl, hread,
      hdraft, foldl_entries (sound_toDraft_finish hsound), finish_toDraft_finish hsound]

/-- A rule that has been read and revised is read from its written tree as the very same rule, with
all its fields in their order. So writing a tree that was written changes nothing any more. -/
theorem ofTree_toTree_mapPatterns_ofTree (f : PatternField → String → String) {tree : Tree}
    (h : tree.wellKeyed = true) :
    ofTree ((ofTree tree).mapPatterns f).toTree = (ofTree tree).mapPatterns f ∧
      (ofTree (ofTree tree).toTree).toTree = (ofTree tree).toTree := by
  refine ⟨rereads tree h, ?_⟩
  have hread := rereads (f := fun _ text => text) tree h
  rw [mapPatterns_id] at hread
  rw [hread]

/-- A rule with a field of the wrong type, fields that its kind has no use for, two groups of one
name and a repository with a key that is no name. -/
def tangledTree : Tree := .mapping [
  (.string "end", .string "\\)"),
  (.string "patterns", .sequence [.string "nothing", .mapping [(.string "match", .string "a"),
    (.string "while", .string "b"), (.string "include", .null)]]),
  (.string "match", .number (.int 42)),
  (.string "captures", .mapping [(.number (.int 1), .mapping [(.string "name", .string "first")]),
    (.string "1", .mapping [(.string "begin", .string "c")])]),
  (.string "include", .string "$self"),
  (.string "begin", .string "\\("),
  (.string "repository", .mapping [(.bool true, .mapping [])])]

example : (ofTree tangledTree).toTree = .mapping [
    (.string "match", .number (.int 42)),
    (.string "repository", .mapping [(.bool true, .mapping [])]),
    (.string "include", .string "$self"),
    (.string "begin", .string "\\("),
    (.string "end", .string "\\)"),
    (.string "captures", .mapping [(.string "1", .mapping [(.string "begin", .string "c")])]),
    (.string "patterns", .sequence [.string "nothing", .mapping [(.string "include", .null),
      (.string "match", .string "a"), (.string "while", .string "b")]])] := by rfl

theorem ofTree_toTree_mapPatterns_tangled : tangledTree.wellKeyed = true ∧
    ofTree ((ofTree tangledTree).mapPatterns fun _ text => text ++ "+").toTree =
      (ofTree tangledTree).mapPatterns (fun _ text => text ++ "+") ∧
    (ofTree (ofTree tangledTree).toTree).toTree = (ofTree tangledTree).toTree :=
  have hkeys : tangledTree.wellKeyed = true := by decide
  ⟨hkeys, ofTree_toTree_mapPatterns_ofTree (fun _ text => text ++ "+") hkeys⟩

end Rule

end HighlightGrammar

import HighlightGrammar.Proofs.Rules.RuleEntry

/-!
# Reading and writing keep the entries

A rule is its attributes with its fields. Reading a mapping with distinct keys yields the entries of
the mapping, in another order, and writing a rule whose keys are distinct puts down its entries. -/
namespace HighlightGrammar

namespace Table

variable {κ ν : Type} [DecidableEq κ]

/-- A table is told, up to its order, by what stands under the keys. -/
theorem perm_filterMap_get? {table : List (κ × ν)} (h : (table.map Prod.fst).Nodup) {keys : List κ}
    (hkeys : keys.Nodup) (hall : ∀ key, key ∈ keys) :
    table.Perm (keys.filterMap fun key => (get? (· == ·) key table).map fun v => (key, v)) := by
  have hright : (keys.filterMap fun key =>
      (get? (· == ·) key table).map fun v => (key, v)).Nodup := by
    refine List.Pairwise.filterMap _ ?_ hkeys
    rintro a b hne ⟨k, v⟩ hk ⟨k', v'⟩ hk' heq
    simp only [Option.map_eq_some_iff, Prod.mk.injEq] at hk hk'
    obtain ⟨_, _, rfl, rfl⟩ := hk
    obtain ⟨_, _, rfl, rfl⟩ := hk'
    exact hne (Prod.mk.inj heq).1
  refine (List.perm_ext_iff_of_nodup (List.Nodup.of_map _ h) hright).2 ?_
  rintro ⟨key, value⟩
  rw [← get?_eq_some_iff h]
  simp [hall]

end Table

def RuleKind.target? : RuleKind → Option String
  | reference target => some target
  | _ => none

namespace RuleDraft

/-- A draft in which no field is filled twice. -/
structure Sound (draft : RuleDraft) : Prop where
  slots : (draft.slots.map Prod.fst).Nodup
  captures : (draft.captures.map Prod.fst).Nodup
  attributes : draft.attributes.DistinctKeys

theorem sound_empty : empty.Sound := ⟨List.nodup_nil, List.nodup_nil, List.Pairwise.nil⟩

theorem Sound.addEntry {draft : RuleDraft} (h : draft.Sound) (entry : RuleEntry) :
    (draft.addEntry entry).Sound := by
  obtain ⟨hslots, hcaptures, hattributes⟩ := h
  cases entry with
  | other key value => exact ⟨hslots, hcaptures, hattributes.put key value⟩
  | pattern => exact ⟨Table.nodup_keys_put hslots, hcaptures, hattributes⟩
  | captures => exact ⟨hslots, Table.nodup_keys_put hcaptures, hattributes⟩
  | target => exact ⟨hslots, hcaptures, hattributes⟩
  | items => exact ⟨hslots, hcaptures, hattributes⟩
  | named => exact ⟨hslots, hcaptures, hattributes⟩

theorem Sound.foldl_addEntry {draft : RuleDraft} (h : draft.Sound) (read : List RuleEntry) :
    (read.foldl RuleDraft.addEntry draft).Sound := by
  induction read generalizing draft with
  | nil => exact h
  | cons entry read ih => exact ih (h.addEntry entry)

theorem target?_kind (draft : RuleDraft) : draft.kind.target? = draft.target := by
  unfold kind
  cases draft.target <;> cases draft.slot? .beginPattern <;> cases draft.slot? .matchPattern <;> rfl

/-- A kind and what it leaves over are all the filled pattern fields. -/
theorem patterns_kind_append_leftover_perm {draft : RuleDraft} (h : draft.Sound) :
    (draft.kind.patterns ++ draft.leftover).Perm draft.slots := by
  have hall : draft.slots.Perm (PatternField.all.filterMap fun field =>
      (draft.slot? field).map fun text => (field, text)) :=
    Table.perm_filterMap_get? h.slots (by decide) fun field => by cases field <;> decide
  refine List.Perm.trans ?_ hall.symm
  cases htarget : draft.target with
  | some target => simp [kind, leftover, htarget, heldBy, RuleKind.patterns, PatternField.all]
  | none =>
    cases hbegin : draft.slot? .beginPattern with
    | some opening =>
      cases hmatch : draft.slot? .matchPattern with
      | none =>
        cases hend : draft.slot? .endPattern <;> cases hwhile : draft.slot? .whilePattern <;>
          simp [kind, leftover, htarget, hbegin, hmatch, hend, hwhile, heldBy, RuleKind.patterns,
            PatternField.all]
      | some pattern =>
        -- A single pattern is left over, and goes behind the patterns of the region.
        have hlast : (draft.kind.patterns ++ draft.leftover).Perm
            (draft.leftover ++ draft.kind.patterns) := List.perm_append_comm
        cases hend : draft.slot? .endPattern <;> cases hwhile : draft.slot? .whilePattern <;>
          simpa [kind, leftover, htarget, hbegin, hmatch, hend, hwhile, heldBy, RuleKind.patterns,
            PatternField.all] using hlast
    | none =>
      cases hmatch : draft.slot? .matchPattern with
      | some pattern =>
        simp [kind, leftover, htarget, hbegin, hmatch, heldBy, RuleKind.patterns, PatternField.all]
      | none =>
        simp [kind, leftover, htarget, hbegin, hmatch, heldBy, RuleKind.patterns, PatternField.all]

/-- Entries with distinct keys are added one by one. -/
theorem entries_foldl_addEntry_perm {draft : RuleDraft} {front rest : List RuleEntry}
    (hkeys : RuleEntry.DistinctKeys (front ++ rest))
    (hdraft : draft.entries.Perm front) :
    (rest.foldl addEntry draft).entries.Perm (front ++ rest) := by
  induction rest generalizing front draft with
  | nil => simpa using hdraft
  | cons entry rest ih =>
    have hfresh : draft.Fresh entry.key := fun read hread =>
      (List.pairwise_append.1 hkeys).2.2 read (hdraft.mem_iff.1 hread) entry (by simp)
    have hadd : (draft.addEntry entry).entries.Perm (front ++ [entry]) :=
      (entries_addEntry_perm hfresh).trans (hdraft.append_right _)
    have hrest := ih (by simpa using hkeys) hadd
    simpa using hrest

/-- A draft that starts empty holds the entries with distinct keys that are added to it. -/
theorem entries_foldl_empty_perm {read : List RuleEntry}
    (hkeys : RuleEntry.DistinctKeys read) :
    (read.foldl addEntry empty).entries.Perm read := by
  have hempty : empty.entries.Perm [] := List.Perm.refl []
  have hkeys' : RuleEntry.DistinctKeys ([] ++ read) := hkeys
  exact entries_foldl_addEntry_perm hkeys' hempty

end RuleDraft

namespace Rule

theorem readItems_eq_map (items : List Tree) : readItems items = items.map ofTree := by
  induction items with
  | nil => rfl
  | cons item items ih => rw [readItems, ih, List.map_cons]

theorem readNamed_eq_filterMap (entries : Entries) :
    readNamed entries =
      entries.filterMap fun e => e.1.name?.map fun name => (name, ofTree e.2) := by
  induction entries with
  | nil => rfl
  | cons e entries ih =>
    obtain ⟨key, value⟩ := e
    rw [readNamed, List.filterMap_cons]
    cases hname : key.name? with
    | none => simpa [hname] using ih
    | some name => simpa [hname] using ih

theorem readNamed_eq_map {entries : Entries} (h : allNamed entries = true) :
    readNamed entries = entries.map fun e => (e.1.name?.getD "", ofTree e.2) := by
  rw [readNamed_eq_filterMap, ← List.filterMap_eq_map']
  refine List.filterMap_congr fun e he => ?_
  obtain ⟨name, hname⟩ := Option.isSome_iff_exists.1 (List.all_eq_true.1 h e he)
  simp [hname]

theorem keys_readNamed (entries : Entries) :
    (readNamed entries).map Prod.fst = entries.filterMap fun e => e.1.name? := by
  rw [readNamed_eq_filterMap, List.map_filterMap]
  refine List.filterMap_congr fun e _ => ?_
  cases e.1.name? <;> rfl

theorem itemsOf?_eq_some_iff {value : Tree} {rules : List Rule} :
    itemsOf? value = some rules ↔ ∃ items, value = .sequence items ∧ items.map ofTree = rules := by
  cases value with
  | sequence items => simp [itemsOf?, readItems_eq_map]
  | _ => simp [itemsOf?]

theorem mapOf?_eq_some_iff {value : Tree} {rules : RuleMap} :
    mapOf? value = some rules ↔ ∃ entries, value = .mapping entries ∧ allNamed entries = true ∧
      Table.ofList (· == ·) (readNamed entries) = rules := by
  cases value with
  | mapping entries => by_cases h : allNamed entries = true <;> simp [mapOf?, h]
  | _ => simp [mapOf?]

/-- The fields of a rule, in the order in which they are written. -/
def fields (rule : Rule) : List RuleEntry :=
  rule.kind.patterns.map (fun e => .pattern e.1 e.2) ++ rule.kind.target?.toList.map .target ++
    rule.extra.map (fun e => .pattern e.1 e.2) ++ rule.captures.map (fun e => .captures e.1 e.2) ++
    rule.patterns.toList.map .items ++ rule.repository.toList.map .named

/-- The entries of a rule: its attributes and then its fields. -/
def entries (rule : Rule) : List RuleEntry :=
  rule.attributes.map (fun e => .other e.1 e.2) ++ rule.fields

/-- Finishing a draft keeps what has been read. -/
theorem entries_finish_perm {draft : RuleDraft} (h : draft.Sound) :
    draft.finish.entries.Perm draft.entries := by
  have hslots := (RuleDraft.patterns_kind_append_leftover_perm h).map fun e =>
    RuleEntry.pattern e.1 e.2
  have hswap : (draft.target.toList.map RuleEntry.target ++
      draft.leftover.map fun e => RuleEntry.pattern e.1 e.2).Perm
      (draft.leftover.map (fun e => RuleEntry.pattern e.1 e.2) ++
        draft.target.toList.map RuleEntry.target) := List.perm_append_comm
  have htexts : (draft.kind.patterns.map (fun e => RuleEntry.pattern e.1 e.2) ++
      draft.target.toList.map RuleEntry.target ++
        draft.leftover.map fun e => RuleEntry.pattern e.1 e.2).Perm
      (draft.slots.map (fun e => RuleEntry.pattern e.1 e.2) ++
        draft.target.toList.map RuleEntry.target) := by
    rw [List.map_append] at hslots
    rw [List.append_assoc]
    refine (hswap.append_left _).trans ?_
    rw [← List.append_assoc]
    exact hslots.append_right _
  have hfields := (htexts.append_right (draft.captures.map (fun e => .captures e.1 e.2) ++
    draft.patterns.toList.map .items ++ draft.repository.toList.map .named)).append_left
      (draft.attributes.map fun e => .other e.1 e.2)
  simpa [entries, fields, RuleDraft.entries, RuleDraft.finish, RuleDraft.target?_kind] using hfields

/-- Reading keeps all entries of a mapping. -/
theorem entries_ofTree_perm {es : Entries} (h : es.DistinctKeys) :
    (ofTree (.mapping es)).entries.Perm (es.map fun e => .ofTree e.1 e.2) := by
  have hkeys := RuleEntry.distinctKeys_ofTree h
  have hsound := RuleDraft.sound_empty.foldl_addEntry (es.map fun e => .ofTree e.1 e.2)
  rw [ofTree, RuleDraft.readEntries_eq_foldl]
  exact (entries_finish_perm hsound).trans (RuleDraft.entries_foldl_empty_perm hkeys)

/-- The fields of a rule with their keys, as they are written. -/
def writtenFields (rule : Rule) : List (String × Tree) :=
  patternEntries rule.kind.patterns ++ targetEntries rule.kind ++ patternEntries rule.extra ++
    captureEntries rule.captures ++ patternsEntry rule.patterns ++ repositoryEntry rule.repository

theorem captureEntries_eq_map (captures : List (CaptureField × RuleMap)) :
    captureEntries captures = captures.map fun e => (e.1.key, .mapping (namedTrees e.2)) := by
  induction captures with
  | nil => rfl
  | cons e captures ih =>
    obtain ⟨field, rules⟩ := e
    rw [captureEntries, ih, List.map_cons]

theorem toEntry_fields (rule : Rule) :
    rule.fields.map RuleEntry.toEntry = rule.writtenFields.map fun e => (.string e.1, e.2) := by
  obtain ⟨kind, extra, patterns, repository, captures, attributes⟩ := rule
  have htarget : (kind.target?.toList.map RuleEntry.target).map RuleEntry.toEntry =
      (targetEntries kind).map fun e => (.string e.1, e.2) := by
    cases kind <;> rfl
  have hpatterns : (patterns.toList.map RuleEntry.items).map RuleEntry.toEntry =
      (patternsEntry patterns).map fun e => (.string e.1, e.2) := by
    cases patterns <;> rfl
  have hrepository : (repository.toList.map RuleEntry.named).map RuleEntry.toEntry =
      (repositoryEntry repository).map fun e => (.string e.1, e.2) := by
    cases repository <;> rfl
  simp only [fields, writtenFields, List.map_append, htarget, hpatterns, hrepository,
    captureEntries_eq_map, patternEntries, List.map_map]
  rfl

/-- A rule with distinct keys is written as its entries. -/
theorem toTree_eq {rule : Rule} (hkind : ∀ tree, rule.kind ≠ .verbatim tree)
    (h : (RuleEntry.textKeys rule.entries).Nodup) :
    rule.toTree = .mapping (rule.entries.map RuleEntry.toEntry) := by
  have hentries : rule.entries.map RuleEntry.toEntry =
      rule.attributes ++ rule.writtenFields.map fun e => (.string e.1, e.2) := by
    rw [entries, List.map_append, toEntry_fields, List.map_map]
    exact congrArg (· ++ _) (List.map_id' _)
  have hkeys : Entries.textKeys (rule.writtenFields.map fun e => (.string e.1, e.2)) =
      rule.writtenFields.map Prod.fst := by
    rw [Entries.textKeys, List.filterMap_map]
    exact congrFun List.filterMap_eq_map _
  rw [← RuleEntry.textKeys_map_toEntry, hentries, Entries.textKeys, List.filterMap_append] at h
  obtain ⟨_, hnodup, hdisjoint⟩ := List.nodup_append.1 h
  have hput : Entries.putTexts rule.attributes rule.writtenFields =
      rule.attributes ++ rule.writtenFields.map fun e => (.string e.1, e.2) := by
    rw [← Entries.textKeys, hkeys] at hnodup
    refine Entries.putTexts_eq_append hnodup fun e he hmem => ?_
    refine hdisjoint e.1 hmem e.1 ?_ rfl
    rw [← Entries.textKeys, hkeys]
    exact List.mem_map_of_mem he
  obtain ⟨kind, extra, patterns, repository, captures, attributes⟩ := rule
  rw [hentries, ← hput]
  cases kind with
  | verbatim tree => exact absurd rfl (hkind tree)
  | _ => rfl

theorem target?_mapPatterns (f : PatternField → String → String) (kind : RuleKind) :
    (kind.mapPatterns f).target? = kind.target? := by
  cases kind <;> rfl

theorem entries_mapPatterns (f : PatternField → String → String) (rule : Rule) :
    (rule.mapPatterns f).entries = rule.entries.map (RuleEntry.mapPatterns f) := by
  have htexts : ∀ texts : List (PatternField × String),
      (mapTexts f texts).map (fun e => RuleEntry.pattern e.1 e.2) =
        (texts.map fun e => RuleEntry.pattern e.1 e.2).map (RuleEntry.mapPatterns f) := by
    intro texts
    rw [mapTexts, List.map_map, List.map_map]
    rfl
  rw [mapPatterns_eq]
  simp only [entries, fields, RuleKind.patterns_mapPatterns, target?_mapPatterns, htexts,
    List.map_append, List.map_map, Option.toList_map]
  rfl

theorem toTree_mapPatterns (f : PatternField → String → String) {rule : Rule}
    {read : List RuleEntry} (hkind : ∀ tree, rule.kind ≠ .verbatim tree)
    (hread : rule.entries.Perm read) (hkeys : RuleEntry.DistinctKeys read) :
    (rule.mapPatterns f).toTree =
      .mapping ((rule.mapPatterns f).entries.map RuleEntry.toEntry) := by
  have hkind' : ∀ tree, (rule.mapPatterns f).kind ≠ .verbatim tree := by
    intro tree htree
    rw [mapPatterns_eq] at htree
    cases hrule : rule.kind with
    | verbatim other => exact hkind other hrule
    | _ => rw [hrule] at htree; cases htree
  apply toTree_eq hkind'
  rw [entries_mapPatterns, RuleEntry.textKeys_map_mapPatterns]
  exact (hread.filterMap _).nodup_iff.2 hkeys.nodup_textKeys

theorem toEntry_entries_mapPatterns_perm (f : PatternField → String → String) {rule : Rule}
    {read : List RuleEntry} (hread : rule.entries.Perm read) :
    ((rule.mapPatterns f).entries.map RuleEntry.toEntry).Perm
      (read.map fun entry => (entry.mapPatterns f).toEntry) := by
  rw [entries_mapPatterns, List.map_map]
  exact hread.map _

theorem kind_ofTree_mapping (es : Entries) (tree : Tree) :
    (ofTree (.mapping es)).kind ≠ .verbatim tree := by
  rw [ofTree]
  show (Rule.readEntries es .empty).kind ≠ .verbatim tree
  unfold RuleDraft.kind
  split <;> simp

end Rule

end HighlightGrammar

import HighlightGrammar.Proofs.Rules.Mapping
import HighlightGrammar.Proofs.Trees.Entries
import Mathlib.Data.List.Perm.Basic

/-!
# The entries of a rule

Reading understands each entry of a rule mapping on its own, and a rule is told by what its entries
are understood as. Reading loses none of them and makes none up: apart from their order, the entries
of the rule that is read are those of the mapping. Writing puts down the entries of the rule. -/
namespace HighlightGrammar

/-- The key that has a role. -/
def FieldRole.key? : FieldRole → Option String
  | pattern field => some field.key
  | includeTarget => some "include"
  | patterns => some "patterns"
  | repository => some "repository"
  | captures field => some field.key
  | _ => none

theorem FieldRole.of_key {role : FieldRole} {name : String} (h : role.key? = some name) :
    of name = role := by
  cases role with
  | pattern field => cases field <;> cases h <;> decide
  | captures field => cases field <;> cases h <;> decide
  | includeTarget => cases h; decide
  | patterns => cases h; decide
  | repository => cases h; decide
  | _ => cases h

theorem FieldRole.key_of {role : FieldRole} {name : String} (h : of name = role)
    (hrole : role ≠ .attribute) : role.key? = some name := by
  unfold of at h
  split at h
  · next field hfield =>
    have hkey := List.find?_some hfield
    subst h
    simpa [key?] using hkey
  · split at h
    · next field hfield =>
      have hkey := List.find?_some hfield
      subst h
      simpa [key?] using hkey
    · split at h
      · next hname => subst h; simp [key?, hname]
      · split at h
        · next hname => subst h; simp [key?, hname]
        · split at h
          · next hname => subst h; simp [key?, hname]
          · exact absurd h.symm hrole

/-- An entry of a rule, as it is understood. -/
inductive RuleEntry where
  | other (key value : Tree)
  | pattern (field : PatternField) (text : String)
  | target (text : String)
  | captures (field : CaptureField) (rules : RuleMap)
  | items (rules : List Rule)
  | named (rules : RuleMap)

namespace RuleEntry

/-- How an entry of a rule mapping is understood. -/
def ofTree (key value : Tree) : RuleEntry :=
  match key with
  | .string name =>
    match FieldRole.of name, value, Rule.itemsOf? value, Rule.mapOf? value with
    | .pattern field, .string text, _, _ => .pattern field text
    | .includeTarget, .string text, _, _ => .target text
    | .patterns, _, some rules, _ => .items rules
    | .repository, _, _, some rules => .named rules
    | .captures field, _, _, some rules => .captures field rules
    | _, _, _, _ => .other key value
  | _ => .other key value

theorem ofTree_string (name : String) (value : Tree) : ofTree (.string name) value =
    match FieldRole.of name, value, Rule.itemsOf? value, Rule.mapOf? value with
    | .pattern field, .string text, _, _ => .pattern field text
    | .includeTarget, .string text, _, _ => .target text
    | .patterns, _, some rules, _ => .items rules
    | .repository, _, _, some rules => .named rules
    | .captures field, _, _, some rules => .captures field rules
    | _, _, _, _ => .other (.string name) value := rfl

def toEntry : RuleEntry → Tree × Tree
  | other key value => (key, value)
  | pattern field text => (.string field.key, .string text)
  | target text => (.string "include", .string text)
  | captures field rules => (.string field.key, .mapping (Rule.namedTrees rules))
  | items rules => (.string "patterns", .sequence (Rule.itemTrees rules))
  | named rules => (.string "repository", .mapping (Rule.namedTrees rules))

def key (entry : RuleEntry) : Tree := entry.toEntry.1

def mapPatterns (f : PatternField → String → String) : RuleEntry → RuleEntry
  | other key value => other key value
  | pattern field text => pattern field (f field text)
  | target text => target text
  | captures field rules => captures field (rules.mapPatterns f)
  | items rules => items (rules.map (Rule.mapPatterns f))
  | named rules => named (rules.mapPatterns f)

@[simp] theorem key_mapPatterns (f : PatternField → String → String) (entry : RuleEntry) :
    (entry.mapPatterns f).key = entry.key := by
  cases entry <;> rfl

private theorem string_key_of {role : FieldRole} {key name : String} (hrole : .of name = role)
    (hkey : role.key? = some key) : Tree.string key = .string name := by
  have hname : role.key? = some name := FieldRole.key_of hrole (by rintro rfl; cases hkey)
  rw [Option.some.inj (hkey.symm.trans hname)]

@[simp] theorem key_ofTree (key value : Tree) : (ofTree key value).key = key := by
  unfold ofTree
  split
  · next name =>
    split
    · next hrole => exact string_key_of hrole rfl
    · next hrole => exact string_key_of hrole rfl
    · next hrole _ => exact string_key_of hrole rfl
    · next hrole _ => exact string_key_of hrole rfl
    · next hrole _ => exact string_key_of hrole rfl
    · rfl
  · rfl

/-- No entry is written under the key of an earlier one. -/
def DistinctKeys (read : List RuleEntry) : Prop :=
  read.Pairwise fun a b => Tree.same a.key b.key = false

theorem distinctKeys_ofTree {es : Entries} (h : es.DistinctKeys) :
    DistinctKeys (es.map fun e => ofTree e.1 e.2) := by
  rw [DistinctKeys, List.pairwise_map]
  refine List.Pairwise.imp ?_ h
  intro a b hne
  rwa [key_ofTree, key_ofTree]

def textKeys (read : List RuleEntry) : List String :=
  read.filterMap fun entry => entry.key.plainText?

theorem textKeys_map_toEntry (read : List RuleEntry) :
    Entries.textKeys (read.map toEntry) = textKeys read := by
  rw [Entries.textKeys, List.filterMap_map]
  rfl

theorem textKeys_map_mapPatterns (f : PatternField → String → String) (read : List RuleEntry) :
    textKeys (read.map (mapPatterns f)) = textKeys read := by
  rw [textKeys, List.filterMap_map]
  exact List.filterMap_congr fun entry _ => congrArg Tree.plainText? (key_mapPatterns f entry)

theorem DistinctKeys.nodup_textKeys {read : List RuleEntry} (h : DistinctKeys read) :
    (textKeys read).Nodup := by
  rw [← textKeys_map_toEntry]
  exact Entries.DistinctKeys.nodup_textKeys (List.pairwise_map.2 h)

end RuleEntry

namespace RuleDraft

/-- Adds an entry that is understood. -/
def addEntry (draft : RuleDraft) : RuleEntry → RuleDraft
  | .other key value => draft.addAttribute key value
  | .pattern field text => { draft with slots := Table.put (· == ·) field text draft.slots }
  | .target text => { draft with target := some text }
  | .captures field rules =>
    { draft with captures := Table.put (· == ·) field rules draft.captures }
  | .items rules => { draft with patterns := some rules }
  | .named rules => { draft with repository := some rules }

theorem add_eq (draft : RuleDraft) (key value : Tree) :
    draft.add key value (Rule.itemsOf? value) (Rule.mapOf? value) =
      draft.addEntry (.ofTree key value) := by
  cases key with
  | string name =>
    simp only [add, RuleEntry.ofTree]
    generalize Rule.itemsOf? value = items
    generalize Rule.mapOf? value = rules
    cases FieldRole.of name with
    | pattern field => cases value <;> rfl
    | includeTarget => cases value <;> rfl
    | patterns => cases items <;> rfl
    | repository => cases rules <;> rfl
    | captures field => cases rules <;> rfl
    | _ => rfl
  | _ => rfl

theorem readEntries_eq_foldl (entries : Entries) (draft : RuleDraft) :
    Rule.readEntries entries draft =
      (entries.map fun e => RuleEntry.ofTree e.1 e.2).foldl addEntry draft := by
  induction entries generalizing draft with
  | nil => rfl
  | cons e entries ih =>
    obtain ⟨key, value⟩ := e
    rw [Rule.readEntries, add_eq, ih]
    rfl

/-- What has been read, in order of the fields. -/
def entries (draft : RuleDraft) : List RuleEntry :=
  draft.attributes.map (fun e => .other e.1 e.2) ++
    draft.slots.map (fun e => .pattern e.1 e.2) ++ draft.target.toList.map .target ++
    draft.captures.map (fun e => .captures e.1 e.2) ++ draft.patterns.toList.map .items ++
    draft.repository.toList.map .named

/-- No entry of the draft has the key. -/
def Fresh (draft : RuleDraft) (key : Tree) : Prop :=
  ∀ entry ∈ draft.entries, Tree.same entry.key key = false

private theorem Fresh.key_ne {draft : RuleDraft} {name : String} {entry : RuleEntry}
    (h : draft.Fresh (.string name)) (hentry : entry ∈ draft.entries) :
    entry.key ≠ .string name := by
  intro hkey
  have hsame := h entry hentry
  rw [hkey] at hsame
  simp [Tree.same] at hsame

/-- A field of one entry is empty if no entry has its key. -/
private theorem Fresh.eq_none {draft : RuleDraft} {name : String} {α : Type} {field : Option α}
    (wrap : α → RuleEntry) (h : draft.Fresh (.string name))
    (hmem : ∀ a, field = some a → wrap a ∈ draft.entries)
    (hkey : ∀ a, (wrap a).key = .string name) : field = none :=
  Option.eq_none_iff_forall_ne_some.2 fun a ha => h.key_ne (hmem a ha) (hkey a)

/-- In a field of several entries, one with a new key goes to the end. -/
private theorem Fresh.put_eq {draft : RuleDraft} {name : String} {κ ν : Type} [DecidableEq κ]
    {items : List (κ × ν)} {field : κ} (wrap : κ → ν → RuleEntry) (h : draft.Fresh (.string name))
    (hmem : ∀ e ∈ items, wrap e.1 e.2 ∈ draft.entries)
    (hkey : ∀ value, (wrap field value).key = .string name) (value : ν) :
    Table.put (· == ·) field value items = items ++ [(field, value)] := by
  refine Table.put_of_not_mem fun hfield => ?_
  obtain ⟨e, he, rfl⟩ := List.mem_map.1 hfield
  exact h.key_ne (hmem e he) (hkey e.2)

private theorem perm_middle_to_end {α : Type} (front back : List α) (a : α) :
    (front ++ [a] ++ back).Perm (front ++ back ++ [a]) := by
  rw [List.append_assoc, List.append_assoc]
  exact List.perm_append_comm.append_left front

/-- An entry with a new key is added to what has been read. -/
theorem entries_addEntry_perm {draft : RuleDraft} {entry : RuleEntry} (h : draft.Fresh entry.key) :
    (draft.addEntry entry).entries.Perm (draft.entries ++ [entry]) := by
  -- With a new key the entry goes to the end of its field, and the later fields stand behind it.
  cases entry with
  | other key value =>
    have hput : Entries.put draft.attributes key value = draft.attributes ++ [(key, value)] :=
      Table.put_of_fresh fun e he => h (.other e.1 e.2) (by simp [entries, he])
    have hperm := perm_middle_to_end (draft.attributes.map fun e => RuleEntry.other e.1 e.2)
      (draft.slots.map (fun e => .pattern e.1 e.2) ++ draft.target.toList.map .target ++
        draft.captures.map (fun e => .captures e.1 e.2) ++ draft.patterns.toList.map .items ++
        draft.repository.toList.map .named) (.other key value)
    simpa [entries, addEntry, addAttribute, hput] using hperm
  | pattern field text =>
    have hput : Table.put (· == ·) field text draft.slots = draft.slots ++ [(field, text)] :=
      h.put_eq .pattern (fun e he => by simp [entries, he]) (fun _ => rfl) text
    have hperm := perm_middle_to_end (draft.attributes.map (fun e => RuleEntry.other e.1 e.2) ++
        draft.slots.map fun e => .pattern e.1 e.2)
      (draft.target.toList.map .target ++ draft.captures.map (fun e => .captures e.1 e.2) ++
        draft.patterns.toList.map .items ++ draft.repository.toList.map .named)
      (.pattern field text)
    simpa [entries, addEntry, hput] using hperm
  | target text =>
    have hnone : draft.target = none :=
      h.eq_none .target (fun other hother => by simp [entries, hother]) fun _ => rfl
    have hperm := perm_middle_to_end (draft.attributes.map (fun e => RuleEntry.other e.1 e.2) ++
        draft.slots.map fun e => .pattern e.1 e.2)
      (draft.captures.map (fun e => .captures e.1 e.2) ++ draft.patterns.toList.map .items ++
        draft.repository.toList.map .named) (.target text)
    simpa [entries, addEntry, hnone] using hperm
  | captures field rules =>
    have hput : Table.put (· == ·) field rules draft.captures =
        draft.captures ++ [(field, rules)] :=
      h.put_eq .captures (fun e he => by simp [entries, he]) (fun _ => rfl) rules
    have hperm := perm_middle_to_end (draft.attributes.map (fun e => RuleEntry.other e.1 e.2) ++
        draft.slots.map (fun e => .pattern e.1 e.2) ++ draft.target.toList.map .target ++
        draft.captures.map fun e => .captures e.1 e.2)
      (draft.patterns.toList.map .items ++ draft.repository.toList.map .named)
      (.captures field rules)
    simpa [entries, addEntry, hput] using hperm
  | items rules =>
    have hnone : draft.patterns = none :=
      h.eq_none .items (fun other hother => by simp [entries, hother]) fun _ => rfl
    have hperm := perm_middle_to_end (draft.attributes.map (fun e => RuleEntry.other e.1 e.2) ++
        draft.slots.map (fun e => .pattern e.1 e.2) ++ draft.target.toList.map .target ++
        draft.captures.map fun e => .captures e.1 e.2)
      (draft.repository.toList.map .named) (.items rules)
    simpa [entries, addEntry, hnone] using hperm
  | named rules =>
    have hnone : draft.repository = none :=
      h.eq_none .named (fun other hother => by simp [entries, hother]) fun _ => rfl
    simp [entries, addEntry, hnone]

end RuleDraft

end HighlightGrammar

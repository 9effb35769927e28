import HighlightGrammar.Proofs.Documents.Following
import HighlightGrammar.Proofs.Rules.Traversal

/-!
# What the tree of a rule says

A rule that was read from a tree and then revised is written as a tree in which every field stands
under its key. An attribute may have the key of a field, but then its value does not suit the field.
So a string under a pattern key of the tree is a text of the rule, and the trees where the tree has
rules directly below it are those of the rules that stand directly in the rule. -/
namespace HighlightGrammar

namespace Rule

section Fields

variable {rule : Rule}

@[simp] theorem pattern_mem_fields_iff {field : PatternField} {text : String} :
    .pattern field text ∈ rule.fields ↔ (field, text) ∈ rule.texts := by
  simp [fields, texts]

@[simp] theorem captures_mem_fields_iff {field : CaptureField} {rules : RuleMap} :
    .captures field rules ∈ rule.fields ↔ (field, rules) ∈ rule.captures := by
  simp [fields]

@[simp] theorem items_mem_fields_iff {rules : List Rule} :
    .items rules ∈ rule.fields ↔ rule.patterns = some rules := by
  simp [fields]

@[simp] theorem named_mem_fields_iff {rules : RuleMap} :
    .named rules ∈ rule.fields ↔ rule.repository = some rules := by
  simp [fields]

@[simp] theorem other_not_mem_fields {key value : Tree} : .other key value ∉ rule.fields := by
  simp [fields]

theorem mem_writtenFields_iff {name : String} {value : Tree} :
    (name, value) ∈ rule.writtenFields ↔
      ∃ entry ∈ rule.fields, entry.toEntry = (.string name, value) := by
  rw [← List.mem_map, toEntry_fields, List.mem_map]
  simp

/-- The roles of the fields that are written. -/
def writtenRoles (rule : Rule) : List FieldRole :=
  rule.kind.patterns.map (fun e => .pattern e.1) ++
    rule.kind.target?.toList.map (fun _ => .includeTarget) ++
    rule.extra.map (fun e => .pattern e.1) ++ rule.captures.map (fun e => .captures e.1) ++
    rule.patterns.toList.map (fun _ => .patterns) ++
    rule.repository.toList.map fun _ => .repository

theorem roles_writtenFields (rule : Rule) :
    (rule.writtenFields.map Prod.fst).map FieldRole.of = rule.writtenRoles := by
  have htexts : ∀ texts : List (PatternField × String),
      ((patternEntries texts).map Prod.fst).map FieldRole.of = texts.map fun e => .pattern e.1 := by
    intro texts
    rw [patternEntries, List.map_map, List.map_map]
    exact List.map_congr_left fun e _ => FieldRole.of_key rfl
  have htarget : ((targetEntries rule.kind).map Prod.fst).map FieldRole.of =
      rule.kind.target?.toList.map fun _ => .includeTarget := by
    cases rule.kind with
    | reference => exact congrArg (fun role => [role]) (FieldRole.of_key rfl)
    | _ => rfl
  have hcaptures : ((captureEntries rule.captures).map Prod.fst).map FieldRole.of =
      rule.captures.map fun e => .captures e.1 := by
    rw [captureEntries_eq_map, List.map_map, List.map_map]
    exact List.map_congr_left fun e _ => FieldRole.of_key rfl
  have hpatterns : ((patternsEntry rule.patterns).map Prod.fst).map FieldRole.of =
      rule.patterns.toList.map fun _ => .patterns := by
    cases rule.patterns with
    | none => rfl
    | some => exact congrArg (fun role => [role]) (FieldRole.of_key rfl)
  have hrepository : ((repositoryEntry rule.repository).map Prod.fst).map FieldRole.of =
      rule.repository.toList.map fun _ => .repository := by
    cases rule.repository with
    | none => rfl
    | some => exact congrArg (fun role => [role]) (FieldRole.of_key rfl)
  simp only [writtenFields, writtenRoles, List.map_append, htexts, htarget, hcaptures, hpatterns,
    hrepository]

/-- No two fields of a keyed rule are written under one key. -/
theorem Keyed.nodup_writtenFields (h : rule.Keyed) : (rule.writtenFields.map Prod.fst).Nodup := by
  refine .of_map FieldRole.of ?_
  rw [roles_writtenFields]
  have htexts : (rule.texts.map fun e => FieldRole.pattern e.1).Nodup := by
    have hmap := h.texts.map (f := FieldRole.pattern) fun _ _ => FieldRole.pattern.inj
    rwa [List.map_map] at hmap
  have hcaptures : (rule.captures.map fun e => FieldRole.captures e.1).Nodup := by
    have hmap := h.captures.map (f := FieldRole.captures) fun _ _ => FieldRole.captures.inj
    rwa [List.map_map] at hmap
  rw [Rule.texts, List.map_append, List.nodup_append] at htexts
  obtain ⟨hkind, hextra, hdiffer⟩ := htexts
  have hsingle : ∀ {α : Type} (field : Option α) (role : FieldRole),
      (field.toList.map fun _ => role).Nodup := fun field role => by cases field <;> simp
  -- What is left says that fields of different pieces have different roles.
  simp only [writtenRoles, List.nodup_append, hsingle, hkind, hextra, hcaptures, true_and]
  grind

theorem toTree_eq_putTexts (h : ∀ tree, rule.kind ≠ .verbatim tree) :
    rule.toTree = .mapping (Entries.putTexts rule.attributes rule.writtenFields) := by
  obtain ⟨kind, extra, patterns, repository, captures, attributes⟩ := rule
  cases kind with
  | verbatim tree => exact absurd rfl (h tree)
  | _ => rfl

end Fields

/-- The keys of the fields of a rule that a tree is asked for. -/
def fieldKeys : List String := Tree.patternKeys ++ "patterns" :: Tree.ruleMapKeys

/-- A rule that is written with all its fields. No attribute whose key is among `keys` could be read
as a field. -/
structure Faithful (keys : List String) (rule : Rule) : Prop where
  shaped : ∀ tree, rule.kind ≠ .verbatim tree
  keyed : rule.Keyed
  attributes : (Tree.mapping rule.attributes).wellKeyed = true
  others : ∀ name ∈ keys, ∀ value, (.string name, value) ∈ rule.attributes →
    RuleEntry.ofTree (.string name) value = .other (.string name) value

namespace Faithful

variable {keys maps : List String} {rule : Rule}

theorem toEntry_mem (h : rule.Faithful keys) {entry : RuleEntry} (hentry : entry ∈ rule.fields) :
    entry.toEntry ∈ rule.toTree.entries := by
  obtain ⟨name, hname⟩ : ∃ name, entry.toEntry.1 = .string name := by
    cases entry with
    | other => exact absurd hentry other_not_mem_fields
    | _ => exact ⟨_, rfl⟩
  have hwritten : (name, entry.toEntry.2) ∈ rule.writtenFields :=
    mem_writtenFields_iff.2 ⟨entry, hentry, by rw [← hname]⟩
  have hmem := (Entries.mem_putTexts_iff (Tree.distinctKeys_of_wellKeyed h.attributes)
    h.keyed.nodup_writtenFields).2 (Or.inl hwritten)
  rw [toTree_eq_putTexts h.shaped]
  rw [← hname] at hmem
  exact hmem

/-- What the tree says under a key and could be read as a field is a field. -/
theorem exists_field (h : rule.Faithful keys) {name : String} (hname : name ∈ keys) {value : Tree}
    (hmem : (.string name, value) ∈ rule.toTree.entries)
    (hread : RuleEntry.ofTree (.string name) value ≠ .other (.string name) value) :
    ∃ entry ∈ rule.fields, entry.toEntry = (.string name, value) := by
  rw [toTree_eq_putTexts h.shaped] at hmem
  rcases (Entries.mem_putTexts_iff (Tree.distinctKeys_of_wellKeyed h.attributes)
    h.keyed.nodup_writtenFields).1 hmem with hfield | ⟨-, hattribute⟩
  · exact mem_writtenFields_iff.1 hfield
  · exact absurd (h.others name hname value hattribute) hread

theorem mem_texts_iff (h : rule.Faithful keys) (hkeys : ∀ field : PatternField, field.key ∈ keys)
    {field : PatternField} {text : String} : (field, text) ∈ rule.texts ↔
      (.string field.key, .string text) ∈ rule.toTree.entries := by
  constructor
  · exact fun hmem => h.toEntry_mem (pattern_mem_fields_iff.2 hmem)
  · intro hmem
    have hrole : FieldRole.of field.key = .pattern field := FieldRole.of_key rfl
    have hread : RuleEntry.ofTree (.string field.key) (.string text) = .pattern field text := by
      rw [RuleEntry.ofTree_string, hrole]
    obtain ⟨entry, hentry, heq⟩ := h.exists_field (hkeys field) hmem (by rw [hread]; nofun)
    cases entry with
    | pattern other written =>
      obtain ⟨hkey, htext⟩ := Prod.mk.inj heq
      obtain rfl := PatternField.key_injective (Tree.string.inj hkey)
      obtain rfl := Tree.string.inj htext
      exact pattern_mem_fields_iff.1 hentry
    | target =>
      have hinclude : "include" = field.key := Tree.string.inj (Prod.mk.inj heq).1
      cases field <;> exact absurd hinclude (by decide)
    | other => exact absurd hentry other_not_mem_fields
    | _ => exact nomatch (Prod.mk.inj heq).2

theorem itemTrees_of_mem (h : rule.Faithful keys) (hkeys : "patterns" ∈ keys) {items : List Tree}
    (hmem : (.string "patterns", .sequence items) ∈ rule.toTree.entries) :
    ∃ rules, rule.patterns = some rules ∧ itemTrees rules = items := by
  have hrole : FieldRole.of "patterns" = .patterns := FieldRole.of_key rfl
  have hread : RuleEntry.ofTree (.string "patterns") (.sequence items) =
      .items (readItems items) := by
    rw [RuleEntry.ofTree_string, hrole]
    rfl
  obtain ⟨entry, hentry, heq⟩ := h.exists_field hkeys hmem (by rw [hread]; nofun)
  cases entry with
  | items rules =>
    exact ⟨rules, items_mem_fields_iff.1 hentry, Tree.sequence.inj (Prod.mk.inj heq).2⟩
  | other => exact absurd hentry other_not_mem_fields
  | _ => exact nomatch (Prod.mk.inj heq).2

/-- A mapping with string keys that stands where rules are expected by name is that of the
repository or of a capture field. -/
theorem namedTrees_of_mem (h : rule.Faithful keys) {key : String} (hkey : key ∈ keys)
    (hmap : key ∈ Tree.ruleMapKeys) {named : Entries}
    (htexts : ∀ e ∈ named, e.1.plainText?.isSome = true)
    (hmem : (.string key, .mapping named) ∈ rule.toTree.entries) : ∃ rules : RuleMap,
      namedTrees rules = named ∧ ((key = "repository" ∧ rule.repository = some rules) ∨
        ∃ field : CaptureField, key = field.key ∧ (field, rules) ∈ rule.captures) := by
  have hnamed : allNamed named = true := by
    refine List.all_eq_true.2 fun e he => ?_
    obtain ⟨text, htext⟩ := Option.isSome_iff_exists.1 (htexts e he)
    rw [Tree.plainText?_eq_some_iff.1 htext]
    rfl
  have hrules : mapOf? (.mapping named) = some (Table.ofList (· == ·) (readNamed named)) :=
    mapOf?_eq_some_iff.2 ⟨named, rfl, hnamed, rfl⟩
  have hread : RuleEntry.ofTree (.string key) (.mapping named) ≠
      .other (.string key) (.mapping named) := by
    have hrole : ∃ role : FieldRole, role.key? = some key ∧
        (role = .repository ∨ ∃ field, role = .captures field) := by
      simp only [Tree.ruleMapKeys, List.mem_cons, List.not_mem_nil, or_false] at hmap
      rcases hmap with rfl | rfl | rfl | rfl | rfl
      · exact ⟨.repository, rfl, Or.inl rfl⟩
      · exact ⟨.captures .captures, rfl, Or.inr ⟨_, rfl⟩⟩
      · exact ⟨.captures .beginCaptures, rfl, Or.inr ⟨_, rfl⟩⟩
      · exact ⟨.captures .endCaptures, rfl, Or.inr ⟨_, rfl⟩⟩
      · exact ⟨.captures .whileCaptures, rfl, Or.inr ⟨_, rfl⟩⟩
    obtain ⟨role, hrole, rfl | ⟨field, rfl⟩⟩ := hrole
    · rw [RuleEntry.ofTree_string, FieldRole.of_key hrole, hrules]
      intro hother
      cases hother
    · rw [RuleEntry.ofTree_string, FieldRole.of_key hrole, hrules]
      intro hother
      cases hother
  obtain ⟨entry, hentry, heq⟩ := h.exists_field hkey hmem hread
  cases entry with
  | captures field rules =>
    obtain ⟨hfield, hrules⟩ := Prod.mk.inj heq
    exact ⟨rules, Tree.mapping.inj hrules,
      Or.inr ⟨field, (Tree.string.inj hfield).symm, captures_mem_fields_iff.1 hentry⟩⟩
  | named rules =>
    obtain ⟨hfield, hrules⟩ := Prod.mk.inj heq
    exact ⟨rules, Tree.mapping.inj hrules,
      Or.inl ⟨(Tree.string.inj hfield).symm, named_mem_fields_iff.1 hentry⟩⟩
  | other => exact absurd hentry other_not_mem_fields
  | _ => cases (Prod.mk.inj heq).2

theorem plainText?_namedTrees {rules : RuleMap} :
    ∀ e ∈ namedTrees rules, e.1.plainText?.isSome = true := by
  intro e he
  rw [namedTrees_eq_map] at he
  obtain ⟨_, -, rfl⟩ := List.mem_map.1 he
  rfl

/-- The trees that stand directly below the tree of a rule where rules are expected are those of
the rules that stand directly in it. -/
theorem ruleBelow_iff (h : rule.Faithful keys) (hitems : "patterns" ∈ keys)
    (hkeys : ∀ key ∈ maps, key ∈ keys ∧ key ∈ Tree.ruleMapKeys)
    (hrepository : "repository" ∈ maps) (hcaptures : ∀ c ∈ rule.captures, c.1.key ∈ maps)
    {key name : String} {tree : Tree} : Tree.RuleBelow maps rule.toTree key name tree ↔
      ∃ inner, Nested rule key name inner ∧ inner.toTree = tree := by
  constructor
  · intro hbelow
    cases hbelow with
    | item listed get =>
      obtain ⟨rules, hrules, rfl⟩ := h.itemTrees_of_mem hitems listed
      rw [itemTrees_eq_map, List.getElem?_map, Option.map_eq_some_iff] at get
      obtain ⟨inner, get, rfl⟩ := get
      exact ⟨inner, .item hrules get, rfl⟩
    | value map listed texts mem =>
      obtain ⟨hkey, hmap⟩ := hkeys key map
      obtain ⟨rules, rfl, hwhere⟩ := h.namedTrees_of_mem hkey hmap texts listed
      rw [namedTrees_eq_map] at mem
      obtain ⟨⟨other, inner⟩, hmem, heq⟩ := List.mem_map.1 mem
      obtain ⟨hname, rfl⟩ := Prod.mk.inj heq
      obtain rfl := Tree.string.inj hname
      rcases hwhere with ⟨rfl, hrules⟩ | ⟨field, rfl, captured⟩
      · exact ⟨inner, .named hrules hmem, rfl⟩
      · exact ⟨inner, .group captured hmem, rfl⟩
  · rintro ⟨inner, hnested, rfl⟩
    have hnamed : ∀ {rules : RuleMap}, (name, inner) ∈ rules →
        (.string name, inner.toTree) ∈ namedTrees rules := fun mem => by
      rw [namedTrees_eq_map]
      exact List.mem_map.2 ⟨_, mem, rfl⟩
    cases hnested with
    | @item rules index _ hrules get =>
      refine .item (h.toEntry_mem (items_mem_fields_iff.2 hrules)) ?_
      rw [itemTrees_eq_map, List.getElem?_map, get]
      rfl
    | named hrules mem =>
      exact .value hrepository (h.toEntry_mem (named_mem_fields_iff.2 hrules))
        plainText?_namedTrees (hnamed mem)
    | group captured mem =>
      exact .value (hcaptures _ captured) (h.toEntry_mem (captures_mem_fields_iff.2 captured))
        plainText?_namedTrees (hnamed mem)

/-- The tree of a rule is well keyed if those of the rules in it are. -/
theorem wellKeyed_toTree (h : rule.Faithful keys)
    (ih : ∀ key name inner, Nested rule key name inner → inner.toTree.wellKeyed = true) :
    rule.toTree.wellKeyed = true := by
  have hnamed : ∀ rules : RuleMap, (rules.map Prod.fst).Nodup →
      (∀ e ∈ rules, e.2.toTree.wellKeyed = true) →
      (Tree.mapping (namedTrees rules)).wellKeyed = true := by
    intro rules hnodup hrules
    rw [namedTrees_eq_map]
    refine Tree.wellKeyed_mapping_iff.2 ⟨?_, fun e he => ?_⟩
    · rw [List.Nodup, List.pairwise_map] at hnodup
      exact List.pairwise_map.2 (hnodup.imp fun hne => beq_eq_false_iff_ne.2 hne)
    · obtain ⟨e', he', rfl⟩ := List.mem_map.1 he
      exact ⟨rfl, hrules e' he'⟩
  rw [toTree_eq_putTexts h.shaped]
  refine Tree.wellKeyed_putTexts h.attributes fun e he => ?_
  obtain ⟨entry, hentry, heq⟩ := mem_writtenFields_iff.1 he
  obtain ⟨-, hvalue⟩ := Prod.mk.inj heq
  rw [← hvalue]
  cases entry with
  | captures field rules =>
    have captured := captures_mem_fields_iff.1 hentry
    exact hnamed rules (h.keyed.groups _ captured) fun e he => ih _ _ _ (.group captured he)
  | items rules =>
    have hrules := items_mem_fields_iff.1 hentry
    refine Tree.wellKeyed_sequence_iff.2 fun item hitem => ?_
    rw [itemTrees_eq_map] at hitem
    obtain ⟨inner, hinner, rfl⟩ := List.mem_map.1 hitem
    obtain ⟨index, get⟩ := List.getElem?_of_mem hinner
    exact ih _ _ _ (.item hrules get)
  | named rules =>
    have hrules := named_mem_fields_iff.1 hentry
    exact hnamed rules (h.keyed.names _ hrules) fun e he => ih _ _ _ (.named hrules he)
  | other => exact absurd hentry other_not_mem_fields
  | pattern => rfl
  | target => rfl

end Faithful

/-- A rule was read from a tree in which no mapping has a key twice. -/
def IsRead (rule : Rule) : Prop := ∃ tree : Tree, tree.wellKeyed = true ∧ ofTree tree = rule

/-- A rule was read and then revised. -/
def IsRevised (f : PatternField → String → String) (rule : Rule) : Prop :=
  ∃ read : Rule, read.IsRead ∧ read.mapPatterns f = rule

end Rule

namespace RuleEntry

/-- The rules that an entry holds. -/
def rules : RuleEntry → List Rule
  | items rules => rules
  | named rules => rules.map Prod.snd
  | captures _ rules => rules.map Prod.snd
  | _ => []

/-- An entry that is understood holds rules that are read from its value. -/
theorem Holds.isRead {key value : Tree} {entry : RuleEntry} (h : entry.Holds key value)
    (hvalue : value.wellKeyed = true) : ∀ rule ∈ entry.rules, rule.IsRead := by
  have hmap : ∀ rules : RuleMap, Rule.mapOf? value = some rules →
      ∀ rule ∈ rules.map Prod.snd, rule.IsRead := by
    intro rules hrules rule hrule
    obtain ⟨e, he, rfl⟩ := List.mem_map.1 hrule
    obtain ⟨inner, hinside, hread⟩ := Rule.exists_inside_of_mapOf? hrules he
    exact ⟨inner, hinside.wellKeyed hvalue, hread⟩
  cases entry with
  | items rules =>
    intro rule hrule
    obtain ⟨inner, hinside, hread⟩ := Rule.exists_inside_of_itemsOf? h hrule
    exact ⟨inner, hinside.wellKeyed hvalue, hread⟩
  | named rules => exact hmap rules h
  | captures field rules => exact hmap rules h
  | _ => nofun

end RuleEntry

namespace RuleDraft

/-- A draft of a rule that is written with all its fields and that holds read rules. -/
structure Faithful (keys : List String) (draft : RuleDraft) : Prop where
  attributes : (Tree.mapping draft.attributes).wellKeyed = true
  others : ∀ name ∈ keys, ∀ value, (.string name, value) ∈ draft.attributes →
    RuleEntry.ofTree (.string name) value = .other (.string name) value
  nested : ∀ key name inner, Rule.Nested draft.finish key name inner → inner.IsRead

variable {keys : List String}

/-- What stands in a draft with one more entry stood in the draft or is held by the entry. -/
theorem nested_addEntry {draft : RuleDraft} {entry : RuleEntry} {key name : String} {inner : Rule}
    (h : Rule.Nested (draft.addEntry entry).finish key name inner) :
    Rule.Nested draft.finish key name inner ∨ inner ∈ entry.rules := by
  cases entry with
  | captures field rules =>
    cases h with
    | item hrules get => exact Or.inl (.item hrules get)
    | named hrules mem => exact Or.inl (.named hrules mem)
    | group captured mem =>
      rcases Table.mem_put captured with captured | rfl
      · exact Or.inl (.group captured mem)
      · exact Or.inr (List.mem_map_of_mem mem)
  | items rules =>
    cases h with
    | item hrules get =>
      obtain rfl := Option.some.inj hrules
      exact Or.inr (List.mem_of_getElem? get)
    | named hrules mem => exact Or.inl (.named hrules mem)
    | group captured mem => exact Or.inl (.group captured mem)
  | named rules =>
    cases h with
    | item hrules get => exact Or.inl (.item hrules get)
    | named hrules mem =>
      obtain rfl := Option.some.inj hrules
      exact Or.inr (List.mem_map_of_mem mem)
    | group captured mem => exact Or.inl (.group captured mem)
  | _ => exact Or.inl (h.congr rfl rfl rfl)

theorem Faithful.addEntry {draft : RuleDraft} {entry : RuleEntry} {key value : Tree}
    (h : draft.Faithful keys) (hholds : entry.Holds key value) (hkey : key.wellKeyed = true)
    (hvalue : value.wellKeyed = true)
    (hother : ∀ name ∈ keys, ∀ v, entry = .other (.string name) v →
      RuleEntry.ofTree (.string name) v = .other (.string name) v) :
    (draft.addEntry entry).Faithful keys := by
  have hnested : ∀ key name inner,
      Rule.Nested (draft.addEntry entry).finish key name inner → inner.IsRead := by
    intro k n inner hinner
    rcases nested_addEntry hinner with hinner | hmem
    · exact h.nested k n inner hinner
    · exact hholds.isRead hvalue inner hmem
  cases entry with
  | other k v =>
    obtain ⟨rfl, rfl⟩ := hholds
    refine ⟨Tree.wellKeyed_put h.attributes hkey hvalue, fun name hname w hmem => ?_, hnested⟩
    rcases Entries.mem_put_string hmem with hmem | ⟨rfl, rfl⟩
    · exact h.others name hname w hmem
    · exact hother name hname w rfl
  | _ => exact ⟨h.attributes, h.others, hnested⟩

/-- A draft that is filled from entries without keys that come twice, each understood on its own. -/
theorem faithful_foldl {understand : Tree → Tree → RuleEntry}
    (hholds : ∀ key value, (understand key value).Holds key value)
    (hothers : ∀ name ∈ keys, ∀ value, understand (.string name) value = .other (.string name) value →
      RuleEntry.ofTree (.string name) value = .other (.string name) value)
    {entries : Entries} (hentries : ∀ e ∈ entries, e.1.wellKeyed = true ∧ e.2.wellKeyed = true)
    {draft : RuleDraft} (h : draft.Faithful keys) :
    ((entries.map fun e => understand e.1 e.2).foldl RuleDraft.addEntry draft).Faithful keys := by
  induction entries generalizing draft with
  | nil => exact h
  | cons e entries ih =>
    obtain ⟨hkey, hvalue⟩ := hentries e (by simp)
    refine ih (fun e' he' => hentries e' (by simp [he'])) ?_
    refine h.addEntry (hholds e.1 e.2) hkey hvalue fun name hname v hother => ?_
    have hheld : (RuleEntry.other (.string name) v).Holds e.1 e.2 := hother ▸ hholds e.1 e.2
    obtain ⟨hname', hv⟩ := hheld
    refine hothers name hname v ?_
    rw [← hother, hname', hv]

theorem faithful_empty : empty.Faithful keys where
  attributes := rfl
  others := nofun
  nested := fun _ _ _ hinner => absurd hinner (Rule.not_nested_of_bare rfl rfl rfl)

theorem Faithful.finish {draft : RuleDraft} (h : draft.Faithful keys) (hkeyed : draft.finish.Keyed) :
    draft.finish.Faithful keys where
  shaped := by
    intro tree hkind
    change draft.kind = .verbatim tree at hkind
    unfold RuleDraft.kind at hkind
    split at hkind <;> cases hkind
  keyed := hkeyed
  attributes := h.attributes
  others := h.others

end RuleDraft

namespace Rule

variable {f : PatternField → String → String} {keys : List String} {rule : Rule}

theorem Keyed.mapPatterns (h : rule.Keyed) : (rule.mapPatterns f).Keyed := by
  obtain ⟨htexts, hnames, hcaptures, hgroups⟩ := h
  have hkeys : ∀ rules : RuleMap, (rules.mapPatterns f).map Prod.fst = rules.map Prod.fst :=
    fun rules => List.map_map
  rw [mapPatterns_eq]
  constructor
  · rw [Rule.texts, RuleKind.patterns_mapPatterns, mapTexts, mapTexts, ← List.map_append,
      List.map_map]
    exact htexts
  · intro rules hrules
    obtain ⟨read, hread, rfl⟩ := Option.map_eq_some_iff.1 hrules
    rw [hkeys]
    exact hnames read hread
  · rw [List.map_map]
    exact hcaptures
  · intro c hc
    obtain ⟨read, hread, rfl⟩ := List.mem_map.1 hc
    dsimp only
    rw [hkeys]
    exact hgroups read hread

theorem Faithful.mapPatterns (h : rule.Faithful keys) : (rule.mapPatterns f).Faithful keys where
  shaped := by
    intro tree hkind
    rw [mapPatterns_eq] at hkind
    cases hrule : rule.kind with
    | verbatim other => exact h.shaped other hrule
    | _ => rw [hrule] at hkind; cases hkind
  keyed := h.keyed.mapPatterns
  attributes := by
    rw [mapPatterns_eq]
    exact h.attributes
  others := by
    rw [mapPatterns_eq]
    exact h.others

theorem Nested.of_mapPatterns {key name : String} {inner : Rule}
    (h : Nested (rule.mapPatterns f) key name inner) :
    ∃ read, Nested rule key name read ∧ read.mapPatterns f = inner := by
  have hmem : ∀ {rules : RuleMap}, (name, inner) ∈ rules.mapPatterns f →
      ∃ read, (name, read) ∈ rules ∧ read.mapPatterns f = inner := fun mem => by
    obtain ⟨⟨other, read⟩, hread, heq⟩ := List.mem_map.1 mem
    obtain ⟨rfl, rfl⟩ := Prod.mk.inj heq
    exact ⟨read, hread, rfl⟩
  rw [mapPatterns_eq] at h
  cases h with
  | item hrules get =>
    obtain ⟨rules, hread, rfl⟩ := Option.map_eq_some_iff.1 hrules
    rw [List.getElem?_map, Option.map_eq_some_iff] at get
    obtain ⟨read, get, rfl⟩ := get
    exact ⟨read, .item hread get, rfl⟩
  | named hrules mem =>
    obtain ⟨rules, hread, rfl⟩ := Option.map_eq_some_iff.1 hrules
    obtain ⟨read, listed, rfl⟩ := hmem mem
    exact ⟨read, .named hread listed, rfl⟩
  | group captured mem =>
    obtain ⟨⟨field, rules⟩, hread, heq⟩ := List.mem_map.1 captured
    obtain ⟨rfl, rfl⟩ := Prod.mk.inj heq
    obtain ⟨read, listed, rfl⟩ := hmem mem
    exact ⟨read, .group hread listed, rfl⟩

/-- A read rule is a tree that is carried along or is written with all its fields. -/
theorem IsRead.faithful_or (h : rule.IsRead) : rule.Faithful fieldKeys ∧
      (∀ key name inner, Nested rule key name inner → inner.IsRead) ∨
    ∃ tree : Tree, tree.wellKeyed = true ∧ (∀ es, tree ≠ .mapping es) ∧ rule = ofVerbatim tree := by
  obtain ⟨tree, hkeys, rfl⟩ := h
  cases tree with
  | mapping es =>
    left
    have hdraft : (readEntries es .empty).Faithful fieldKeys := by
      rw [RuleDraft.readEntries_eq_foldl]
      exact RuleDraft.faithful_foldl RuleEntry.holds_ofTree (fun _ _ _ hother => hother)
        (Tree.wellKeyed_mapping_iff.1 hkeys).2 RuleDraft.faithful_empty
    have hkeyed := keyedThroughout_ofTree (.mapping es) [] _ (.here _)
    exact ⟨hdraft.finish hkeyed, hdraft.nested⟩
  | _ => exact Or.inr ⟨_, hkeys, nofun, rfl⟩

theorem not_nested_ofVerbatim {tree : Tree} {key name : String} {inner : Rule} :
    ¬ Nested (ofVerbatim tree) key name inner := not_nested_of_bare rfl rfl rfl

namespace IsRevised

theorem nested (h : rule.IsRevised f) {key name : String} {inner : Rule}
    (hinner : Nested rule key name inner) : inner.IsRevised f := by
  obtain ⟨read, hread, rfl⟩ := h
  obtain ⟨readInner, hnested, rfl⟩ := hinner.of_mapPatterns
  rcases hread.faithful_or with ⟨-, hread⟩ | ⟨tree, -, -, rfl⟩
  · exact ⟨readInner, hread _ _ _ hnested, rfl⟩
  · exact absurd hnested not_nested_ofVerbatim

theorem faithful_or (h : rule.IsRevised f) : rule.Faithful fieldKeys ∨
    ∃ tree : Tree, tree.wellKeyed = true ∧ (∀ es, tree ≠ .mapping es) ∧ rule = ofVerbatim tree := by
  obtain ⟨read, hread, rfl⟩ := h
  rcases hread.faithful_or with ⟨hfaithful, -⟩ | ⟨tree, hkeys, hshape, rfl⟩
  · exact Or.inl hfaithful.mapPatterns
  · exact Or.inr ⟨tree, hkeys, hshape, rfl⟩

theorem wellKeyed_toTree (h : rule.IsRevised f) : rule.toTree.wellKeyed = true := by
  induction rule using inductionOnNested with
  | step rule ih =>
    rcases h.faithful_or with hfaithful | ⟨tree, hkeys, -, rfl⟩
    · exact hfaithful.wellKeyed_toTree fun key name inner hinner =>
        ih key name inner hinner (h.nested hinner)
    · exact hkeys

theorem mem_texts_iff (h : rule.IsRevised f) {field : PatternField} {text : String} :
    (field, text) ∈ rule.texts ↔ (.string field.key, .string text) ∈ rule.toTree.entries := by
  rcases h.faithful_or with hfaithful | ⟨tree, -, hshape, rfl⟩
  · exact hfaithful.mem_texts_iff (fun field => by cases field <;> decide)
  · have htree : (ofVerbatim tree).toTree = tree := rfl
    rw [htree, Tree.entries_eq_nil hshape]
    exact iff_of_false List.not_mem_nil List.not_mem_nil

theorem ruleBelow_iff (h : rule.IsRevised f) {key name : String} {tree : Tree} :
    Tree.RuleBelow Tree.ruleMapKeys rule.toTree key name tree ↔
      ∃ inner, Nested rule key name inner ∧ inner.toTree = tree := by
  rcases h.faithful_or with hfaithful | ⟨other, -, hshape, rfl⟩
  · refine hfaithful.ruleBelow_iff (by decide) (fun key hkey => ⟨?_, hkey⟩) (by decide) ?_
    · exact List.mem_append_right _ (List.mem_cons_of_mem _ hkey)
    · exact fun c _ => by cases c.1 <;> decide
  · have hnone := Tree.entries_eq_nil hshape
    have htree : (ofVerbatim other).toTree = other := rfl
    rw [htree]
    refine iff_of_false (fun hbelow => ?_) fun ⟨_, hnested, _⟩ => not_nested_ofVerbatim hnested
    cases hbelow with
    | item listed => exact absurd (hnone ▸ listed) List.not_mem_nil
    | value _ listed => exact absurd (hnone ▸ listed) List.not_mem_nil

theorem of_at (h : rule.IsRevised f) {place : List String} {inner : Rule}
    (hat : At rule place inner) : inner.IsRevised f := by
  induction hat with
  | here => exact h
  | inside step _ ih => exact ih (h.nested step)

/-- The trees that stand at the places of a tree where rules are expected are those of the rules
that stand at these places. -/
theorem ruleAt_iff (h : rule.IsRevised f) {place : List String} {tree : Tree} :
    Tree.RuleAt rule.toTree place tree ↔ ∃ inner, At rule place inner ∧ inner.toTree = tree := by
  constructor
  · intro hat
    generalize hroot : rule.toTree = root at hat
    induction hat generalizing rule with
    | here => exact ⟨rule, .here rule, hroot⟩
    | inside step _ ih =>
      subst hroot
      obtain ⟨inner, hnested, hinner⟩ := h.ruleBelow_iff.1 step
      obtain ⟨deep, hdeep, htree⟩ := ih (h.nested hnested) hinner
      exact ⟨deep, .inside hnested hdeep, htree⟩
  · rintro ⟨inner, hat, rfl⟩
    induction hat with
    | here => exact .here _
    | inside step _ ih =>
      exact .inside (h.ruleBelow_iff.2 ⟨_, step, rfl⟩) (ih (h.nested step))

end IsRevised

end Rule

end HighlightGrammar

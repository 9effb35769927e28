import HighlightGrammar.Proofs.Rules.Rereading

/-!
# The places of rules

A rule stands below another one under two keys: the section that holds it, and its name or position
there. A place is a way down along such pairs. The listing walk visits every place where a rule
stands, and in a rule that was read from a tree no two rules stand at one place. -/
namespace HighlightGrammar

namespace Rule

/-- The pattern texts of a rule itself. -/
def texts (rule : Rule) : List (PatternField × String) := rule.kind.patterns ++ rule.extra

/-- A rule stands directly in another one, in a section and under a name. -/
inductive Nested (rule : Rule) : String → String → Rule → Prop where
  | item {rules : List Rule} {index : Nat} {inner} (section_eq : rule.patterns = some rules)
      (get : rules[index]? = some inner) : Nested rule "patterns" (toString index) inner
  | named {rules name inner} (section_eq : rule.repository = some rules)
      (mem : (name, inner) ∈ rules) : Nested rule "repository" name inner
  | group {field rules name inner} (captured : (field, rules) ∈ rule.captures)
      (mem : (name, inner) ∈ rules) : Nested rule (CaptureField.key field) name inner

/-- A rule stands at a place inside another one. -/
inductive At : Rule → List String → Rule → Prop where
  | here (rule : Rule) : At rule [] rule
  | inside {rule sectionKey name nested place inner} (step : Nested rule sectionKey name nested)
      (rest : At nested place inner) : At rule (sectionKey :: name :: place) inner

/-- Only the nested rules, the repository and the captures of a rule tell what stands in it. -/
theorem Nested.congr {rule other inner : Rule} {sectionKey name : String}
    (h : Nested rule sectionKey name inner) (hpatterns : other.patterns = rule.patterns)
    (hrepository : other.repository = rule.repository) (hcaptures : other.captures = rule.captures) :
    Nested other sectionKey name inner := by
  cases h with
  | item hrules get => exact .item (hpatterns.trans hrules) get
  | named hrules mem => exact .named (hrepository.trans hrules) mem
  | group captured mem => exact .group (hcaptures ▸ captured) mem

theorem not_nested_of_bare {rule inner : Rule} {sectionKey name : String}
    (hpatterns : rule.patterns = none) (hrepository : rule.repository = none)
    (hcaptures : rule.captures = []) : ¬ Nested rule sectionKey name inner := by
  rintro (⟨hrules, -⟩ | ⟨hrules, -⟩ | ⟨captured, -⟩)
  · cases hpatterns.symm.trans hrules
  · cases hrepository.symm.trans hrules
  · rw [hcaptures] at captured
    cases captured

/-- A property that passes from all directly nested rules to the rule holds for all rules. -/
@[elab_as_elim]
theorem inductionOnNested {P : Rule → Prop}
    (step : ∀ rule : Rule, (∀ sectionKey name inner, Nested rule sectionKey name inner → P inner) →
      P rule) (rule : Rule) : P rule := by
  induction rule using nestedInduction with
  | step rule ihpatterns ihrepository ihcaptures =>
    refine step rule fun sectionKey name inner hinner => ?_
    cases hinner with
    | item hrules get => exact ihpatterns _ hrules inner (List.mem_of_getElem? get)
    | named hrules mem => exact ihrepository _ hrules _ mem
    | group captured mem => exact ihcaptures _ captured _ mem

/-- The rules that stand directly in a rule with their sections and names, in the order in which
they are visited. -/
def children (rule : Rule) : List ((String × String) × Rule) :=
  (rule.captures.flatMap fun c => c.2.map fun e => ((c.1.key, e.1), e.2)) ++
    (rule.patterns.getD []).zipIdx.map (fun e => (("patterns", toString e.2), e.1)) ++
    (rule.repository.getD []).map fun e => (("repository", e.1), e.2)

theorem mem_children_iff {rule inner : Rule} {sectionKey name : String} :
    ((sectionKey, name), inner) ∈ rule.children ↔ Nested rule sectionKey name inner := by
  simp only [children, List.mem_append, List.mem_flatMap, List.mem_map]
  constructor
  · rintro ((⟨group, captured, e, mem, heq⟩ | ⟨e, listed, heq⟩) | ⟨e, mem, heq⟩) <;> cases heq
    · exact .group captured mem
    · cases hrules : rule.patterns with
      | none => rw [hrules] at listed; cases listed
      | some rules =>
        rw [hrules] at listed
        exact .item hrules (List.mk_mem_zipIdx_iff_getElem?.1 listed)
    · cases hrules : rule.repository with
      | none => rw [hrules] at mem; cases mem
      | some rules =>
        rw [hrules] at mem
        exact .named hrules mem
  · rintro (⟨hrules, get⟩ | ⟨hrules, mem⟩ | ⟨captured, mem⟩)
    · rw [hrules]
      exact Or.inl (Or.inr ⟨_, List.mk_mem_zipIdx_iff_getElem?.2 get, rfl⟩)
    · rw [hrules]
      exact Or.inr ⟨_, mem, rfl⟩
    · exact Or.inl (Or.inl ⟨_, captured, _, mem, rfl⟩)

section Visiting

variable {visit : Visit}

theorem visitItems_eq_flatMap (path : RulePath) (start : Nat) (rules : List Rule) :
    visitItems path start rules =
      (rules.zipIdx start).flatMap fun e => e.1.visits (path.child (toString e.2)) := by
  induction rules generalizing start with
  | nil => rfl
  | cons rule rules ih => rw [visitItems, ih, List.zipIdx_cons, List.flatMap_cons, RulePath.item]

theorem visitMap_eq_flatMap (path : RulePath) (rules : RuleMap) :
    visitMap path rules = rules.flatMap fun e => e.2.visits (path.child e.1) := by
  induction rules with
  | nil => rfl
  | cons e rules ih => rw [visitMap, ih, List.flatMap_cons]

theorem visitCaptures_eq_flatMap (path : RulePath) (captures : List (CaptureField × RuleMap)) :
    visitCaptures path captures =
      captures.flatMap fun c => visitMap (path.child c.1.key) c.2 := by
  induction captures with
  | nil => rfl
  | cons c captures ih => rw [visitCaptures, ih, List.flatMap_cons]

theorem visits_eq_flatMap (path : RulePath) (rule : Rule) : rule.visits path =
    visitTexts path rule.texts ++
      rule.children.flatMap fun c => c.2.visits ((path.child c.1.1).child c.1.2) := by
  have htexts : visitTexts path rule.kind.patterns ++ visitTexts path rule.extra =
      visitTexts path rule.texts := List.map_append.symm
  have hitems : visitOptionalItems path rule.patterns =
      (rule.patterns.getD []).zipIdx.flatMap fun e =>
        e.1.visits ((path.child "patterns").child (toString e.2)) := by
    cases rule.patterns with
    | none => rfl
    | some rules => exact visitItems_eq_flatMap _ 0 rules
  have hnamed : visitOptionalMap path rule.repository = (rule.repository.getD []).flatMap fun e =>
      e.2.visits ((path.child "repository").child e.1) := by
    cases rule.repository with
    | none => rfl
    | some rules => exact visitMap_eq_flatMap _ rules
  rw [visits_eq, htexts, hitems, hnamed, visitCaptures_eq_flatMap, children]
  simp only [List.flatMap_append, List.flatMap_assoc, List.flatMap_map, visitMap_eq_flatMap,
    List.append_assoc]

theorem mem_visitTexts_iff {path : RulePath} {texts : List (PatternField × String)} :
    visit ∈ visitTexts path texts ↔ visit.path = path ∧ (visit.field, visit.text) ∈ texts := by
  obtain ⟨place, field, text⟩ := visit
  simp only [visitTexts, List.mem_map, Visit.mk.injEq]
  constructor
  · rintro ⟨⟨field, text⟩, hmem, rfl, rfl, rfl⟩
    exact ⟨rfl, hmem⟩
  · rintro ⟨rfl, hmem⟩
    exact ⟨(field, text), hmem, rfl, rfl, rfl⟩

/-- A rule is visited for its own texts and for each rule that stands directly in it. -/
theorem mem_visits_step {path : RulePath} {rule : Rule} :
    visit ∈ rule.visits path ↔ (visit.path = path ∧ (visit.field, visit.text) ∈ rule.texts) ∨
      ∃ sectionKey name inner, Nested rule sectionKey name inner ∧
        visit ∈ inner.visits ((path.child sectionKey).child name) := by
  rw [visits_eq_flatMap, List.mem_append, mem_visitTexts_iff, List.mem_flatMap]
  simp only [Prod.exists, mem_children_iff]

/-- The listing visits the texts of every rule that stands somewhere in a rule, and nothing else. -/
theorem mem_visits_iff {path : RulePath} {rule : Rule} :
    visit ∈ rule.visits path ↔ ∃ place inner, At rule place inner ∧
      visit.path.segments = path.segments ++ place ∧ (visit.field, visit.text) ∈ inner.texts := by
  constructor
  · intro hvisit
    induction rule using inductionOnNested generalizing path with
    | step rule ih =>
      rcases mem_visits_step.1 hvisit with ⟨hpath, hmem⟩ | ⟨sectionKey, name, inner, hinner, hvisit⟩
      · exact ⟨[], rule, .here rule, by simp [hpath], hmem⟩
      · obtain ⟨place, deep, hdeep, hsegments, hmem⟩ := ih _ _ _ hinner hvisit
        exact ⟨_, deep, .inside hinner hdeep, by simpa using hsegments, hmem⟩
  · rintro ⟨place, inner, hat, hsegments, hmem⟩
    -- Each step down moves two segments from the place to the path of the walk.
    induction hat generalizing path with
    | here rule =>
      rw [List.append_nil] at hsegments
      refine mem_visits_step.2 (Or.inl ⟨?_, hmem⟩)
      cases hpath : visit.path
      cases path
      simp_all
    | inside step _ ih =>
      refine mem_visits_step.2 (Or.inr ⟨_, _, _, step, ih ?_ hmem⟩)
      simpa using hsegments

end Visiting

/-- The names of a rule tell apart what they name: its fields, and the rules in each section. -/
structure Keyed (rule : Rule) : Prop where
  texts : (rule.texts.map Prod.fst).Nodup
  names : ∀ rules, rule.repository = some rules → (rules.map Prod.fst).Nodup
  captures : (rule.captures.map Prod.fst).Nodup
  groups : ∀ c ∈ rule.captures, (c.2.map Prod.fst).Nodup

/-- A rule is keyed at each of its places. -/
def KeyedThroughout (rule : Rule) : Prop := ∀ place inner, At rule place inner → inner.Keyed

end Rule

theorem Table.eq_of_mem {κ ν : Type} [DecidableEq κ] {table : List (κ × ν)}
    (h : (table.map Prod.fst).Nodup) {key : κ} {value other : ν} (hvalue : (key, value) ∈ table)
    (hother : (key, other) ∈ table) : value = other := by
  rw [← get?_eq_some_iff h] at hvalue hother
  exact Option.some.inj (hvalue.symm.trans hother)

namespace Rule

/-- Positions are told apart by their text. -/
theorem position_inj {index other : Nat} (h : toString index = toString other) :
    index = other := by
  rw [Nat.toString_eq_ofList_toDigits, Nat.toString_eq_ofList_toDigits, String.ofList_inj] at h
  calc index = Nat.ofDigitChars 10 (Nat.toDigits 10 index) 0 := Nat.ofDigitChars_ten_toDigits.symm
    _ = other := by rw [h, Nat.ofDigitChars_ten_toDigits]

/-- What is told apart by its names is told apart by them behind one front, too. -/
theorem nodup_map_pair {α β γ : Type} (front : α) {name : γ → β} {items : List γ}
    (h : (items.map name).Nodup) : (items.map fun item => (front, name item)).Nodup := by
  have hpairs := h.map (f := Prod.mk front) fun _ _ heq => (Prod.mk.inj heq).2
  rwa [List.map_map] at hpairs

theorem Keyed.nodup_groups {rule : Rule} (h : rule.Keyed) :
    ((rule.captures.flatMap fun c => c.2.map fun e => ((c.1.key, e.1), e.2)).map
      Prod.fst).Nodup := by
  rw [List.map_flatMap, List.nodup_flatMap]
  refine ⟨fun c hc => ?_, (List.pairwise_map.1 h.captures).imp fun {c d} hne => ?_⟩
  · rw [List.map_map]
    exact nodup_map_pair c.1.key (h.groups c hc)
  · refine List.disjoint_left.2 fun position hc hd => ?_
    simp only [List.map_map, List.mem_map, Function.comp_apply] at hc hd
    obtain ⟨_, _, rfl⟩ := hc
    obtain ⟨_, _, heq⟩ := hd
    exact hne (CaptureField.key_injective (Prod.mk.inj heq).1.symm)

theorem nodup_items (rules : List Rule) :
    ((rules.zipIdx.map fun e => (("patterns", toString e.2), e.1)).map Prod.fst).Nodup := by
  have hindices : (rules.zipIdx.map Prod.snd).Nodup := by
    rw [List.zipIdx_map_snd]
    exact List.nodup_range' _
  have hnames := hindices.map (f := fun index => toString index) fun _ _ heq => position_inj heq
  rw [List.map_map] at hnames ⊢
  exact nodup_map_pair "patterns" hnames

theorem Keyed.nodup_named {rule : Rule} (h : rule.Keyed) :
    (((rule.repository.getD []).map fun e => (("repository", e.1), e.2)).map
      Prod.fst).Nodup := by
  have hnames : ((rule.repository.getD []).map Prod.fst).Nodup := by
    cases hrules : rule.repository with
    | none => exact List.nodup_nil
    | some rules => exact h.names rules hrules
  rw [List.map_map]
  exact nodup_map_pair "repository" hnames

/-- The rules that stand directly in a keyed rule are told apart by their sections and names. -/
theorem Keyed.nodup_children {rule : Rule} (h : rule.Keyed) :
    (rule.children.map Prod.fst).Nodup := by
  have hkey : ∀ field : CaptureField, field.key ≠ "patterns" ∧ field.key ≠ "repository" :=
    fun field => by cases field <;> decide
  rw [children, List.map_append, List.map_append, List.nodup_append', List.nodup_append']
  refine ⟨⟨h.nodup_groups, nodup_items _, ?_⟩, h.nodup_named, ?_⟩
  · refine List.disjoint_left.2 fun position hgroup hitem => ?_
    simp only [List.map_map, List.map_flatMap, List.mem_flatMap, List.mem_map,
      Function.comp_apply] at hgroup hitem
    obtain ⟨c, -, _, -, rfl⟩ := hgroup
    obtain ⟨_, -, heq⟩ := hitem
    exact (hkey c.1).1 (Prod.mk.inj heq).1.symm
  · refine List.disjoint_left.2 fun position hfirst hname => ?_
    simp only [List.map_map, List.map_flatMap, List.mem_append, List.mem_flatMap, List.mem_map,
      Function.comp_apply] at hfirst hname
    obtain ⟨_, -, heq⟩ := hname
    rcases hfirst with ⟨c, -, _, -, rfl⟩ | ⟨_, -, rfl⟩
    · exact (hkey c.1).2 (Prod.mk.inj heq).1.symm
    · exact absurd (Prod.mk.inj heq).1 (by decide)

theorem Nested.unique {rule inner other : Rule} {sectionKey name : String} (hkeyed : rule.Keyed)
    (h : Nested rule sectionKey name inner) (h' : Nested rule sectionKey name other) :
    inner = other :=
  Table.eq_of_mem hkeyed.nodup_children (mem_children_iff.2 h) (mem_children_iff.2 h')

/-- No two rules stand at one place. -/
theorem At.unique {rule inner other : Rule} {place : List String} (hkeyed : rule.KeyedThroughout)
    (h : At rule place inner) (h' : At rule place other) : inner = other := by
  induction h with
  | here rule =>
    cases h'
    rfl
  | inside step _ ih =>
    cases h' with
    | inside step' rest' =>
      obtain rfl := step.unique (hkeyed _ _ (.here _)) step'
      exact ih (fun place deep hdeep => hkeyed _ deep (.inside step hdeep)) rest'

theorem KeyedThroughout.of_nested {rule : Rule} (hrule : rule.Keyed)
    (h : ∀ sectionKey name inner, Nested rule sectionKey name inner → inner.KeyedThroughout) :
    rule.KeyedThroughout := by
  intro place inner hat
  cases hat with
  | here => exact hrule
  | inside step rest => exact h _ _ _ step _ _ rest

end Rule

section Reading

/-- No name comes twice, here and in the rules of the map. -/
def RuleMap.Keyed (rules : RuleMap) : Prop :=
  (rules.map Prod.fst).Nodup ∧ ∀ e ∈ rules, e.2.KeyedThroughout

def RuleEntry.Keyed : RuleEntry → Prop
  | items rules => ∀ rule ∈ rules, rule.KeyedThroughout
  | named rules => rules.Keyed
  | captures _ rules => rules.Keyed
  | _ => True

structure RuleDraft.Keyed (draft : RuleDraft) : Prop where
  items : ∀ rules, draft.patterns = some rules → ∀ rule ∈ rules, rule.KeyedThroughout
  named : ∀ rules, draft.repository = some rules → rules.Keyed
  groups : ∀ c ∈ draft.captures, RuleMap.Keyed c.2

namespace RuleDraft

theorem Keyed.addEntry {draft : RuleDraft} {entry : RuleEntry} (h : draft.Keyed)
    (hentry : entry.Keyed) : (draft.addEntry entry).Keyed := by
  obtain ⟨hitems, hnamed, hgroups⟩ := h
  cases entry with
  | items rules => exact ⟨fun _ heq => Option.some.inj heq ▸ hentry, hnamed, hgroups⟩
  | named rules => exact ⟨hitems, fun _ heq => Option.some.inj heq ▸ hentry, hgroups⟩
  | captures field rules =>
    refine ⟨hitems, hnamed, fun c hc => ?_⟩
    rcases Table.mem_put hc with hc | hvalue
    · exact hgroups c hc
    · rw [hvalue]
      exact hentry
  | other => exact ⟨hitems, hnamed, hgroups⟩
  | pattern => exact ⟨hitems, hnamed, hgroups⟩
  | target => exact ⟨hitems, hnamed, hgroups⟩

theorem Keyed.foldl_addEntry {draft : RuleDraft} {read : List RuleEntry} (h : draft.Keyed)
    (hread : ∀ entry ∈ read, entry.Keyed) : (read.foldl RuleDraft.addEntry draft).Keyed := by
  induction read generalizing draft with
  | nil => exact h
  | cons entry read ih =>
    have hadd := h.addEntry (hread entry (by simp))
    exact ih hadd fun other hother => hread other (by simp [hother])

theorem keyedThroughout_finish {draft : RuleDraft} (hsound : draft.Sound) (h : draft.Keyed) :
    draft.finish.KeyedThroughout := by
  have htexts : (draft.finish.texts.map Prod.fst).Nodup := by
    have hperm := patterns_kind_append_leftover_perm hsound
    exact (hperm.map Prod.fst).nodup_iff.2 hsound.slots
  have hkeyed : draft.finish.Keyed :=
    ⟨htexts, fun rules hrules => (h.named rules hrules).1, hsound.captures,
      fun c hc => (h.groups c hc).1⟩
  refine .of_nested hkeyed fun sectionKey name inner hinner => ?_
  cases hinner with
  | item hrules get => exact h.items _ hrules inner (List.mem_of_getElem? get)
  | named hrules mem => exact (h.named _ hrules).2 _ mem
  | group captured mem => exact (h.groups _ captured).2 _ mem

/-- What is read entry by entry is keyed if each entry is. -/
theorem keyedThroughout_finish_foldl {read : List RuleEntry} (h : ∀ entry ∈ read, entry.Keyed) :
    (read.foldl addEntry empty).finish.KeyedThroughout := by
  have hempty : empty.Keyed := ⟨nofun, nofun, nofun⟩
  exact keyedThroughout_finish (sound_empty.foldl_addEntry read) (hempty.foldl_addEntry h)

end RuleDraft

theorem RuleEntry.keyed_of_holds {key value : Tree} {entry : RuleEntry} (h : entry.Holds key value)
    (ih : ∀ inner, Tree.Inside inner value → (Rule.ofTree inner).KeyedThroughout) :
    entry.Keyed := by
  have hmap : ∀ rules : RuleMap, Rule.mapOf? value = some rules → rules.Keyed := by
    intro rules hrules
    refine ⟨Rule.nodup_names_of_mapOf? hrules, fun e he => ?_⟩
    obtain ⟨inner, hinside, heq⟩ := Rule.exists_inside_of_mapOf? hrules he
    exact heq ▸ ih inner hinside
  cases entry with
  | items rules =>
    intro rule hrule
    obtain ⟨inner, hinside, rfl⟩ := Rule.exists_inside_of_itemsOf? h hrule
    exact ih inner hinside
  | named rules => exact hmap rules h
  | captures field rules => exact hmap rules h
  | other => trivial
  | pattern => trivial
  | target => trivial

/-- Every rule that is read from a tree is keyed. -/
theorem Rule.keyedThroughout_ofTree (tree : Tree) : (ofTree tree).KeyedThroughout := by
  induction tree using Tree.ruleInduction with
  | other tree h =>
    have hverbatim : ofTree tree = ofVerbatim tree := by
      cases tree with
      | mapping es => exact absurd rfl (h es)
      | _ => rfl
    rw [hverbatim]
    have hkeyed : (ofVerbatim tree).Keyed := ⟨List.nodup_nil, nofun, List.nodup_nil, nofun⟩
    exact .of_nested hkeyed fun _ _ _ hinner => absurd hinner (not_nested_of_bare rfl rfl rfl)
  | mapping es ih =>
    rw [ofTree, RuleDraft.readEntries_eq_foldl]
    refine RuleDraft.keyedThroughout_finish_foldl fun entry hentry => ?_
    obtain ⟨e, he, rfl⟩ := List.mem_map.1 hentry
    exact RuleEntry.keyed_of_holds (RuleEntry.holds_ofTree e.1 e.2) (ih e he)

end Reading

end HighlightGrammar

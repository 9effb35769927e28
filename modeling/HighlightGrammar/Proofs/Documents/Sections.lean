import HighlightGrammar.Grammar.Loader
import HighlightGrammar.Proofs.Fallible
import HighlightGrammar.Proofs.Rules.RuleEntries
import HighlightGrammar.Proofs.Trees.Reordering

/-!
# The sections of a document

The body of a grammar holds what a rule without patterns of its own holds. The sections of a
document that do not declare variables are read like the entries of such a rule, one by one, and
variables are read apart from them. -/
namespace HighlightGrammar

/-- How an entry of a document is understood that declares no variables. -/
def RuleEntry.ofSection (key value : Tree) : RuleEntry :=
  match Section.of key, Rule.itemsOf? value, Rule.mapOf? value with
  | .patterns, some rules, _ => .items rules
  | .repository, _, some rules => .named rules
  | _, _, _ => .other key value

theorem Section.of_string (name : String) : of (.string name) =
    if name = "variables" then variableTable
    else if name = "patterns" then patterns
    else if name = "repository" then repository
    else .attribute := rfl

theorem Tree.untagged_ne_tagged (tag : String) (content : Tree) :
    ∀ tree : Tree, tree.untagged ≠ .tagged tag content
  | .tagged _ inner => untagged_ne_tagged tag content inner
  | .null => by simp [untagged]
  | .bool _ => by simp [untagged]
  | .number _ => by simp [untagged]
  | .string _ => by simp [untagged]
  | .sequence _ => by simp [untagged]
  | .mapping _ => by simp [untagged]

/-- Without tags a key opens a section by its text. -/
theorem Section.of_eq_iff {key : Tree} (h : key.untagged = key) :
    (of key = variableTable ↔ key = .string "variables") ∧
      (of key = patterns ↔ key = .string "patterns") ∧
      (of key = repository ↔ key = .string "repository") := by
  cases key with
  | string name =>
    rw [of_string, Tree.string.injEq, Tree.string.injEq, Tree.string.injEq]
    split
    · next hname => simp [hname]
    · split
      · next hname => simp [hname]
      · split
        · next hname => simp [hname]
        · next hvariables hpatterns hrepository => simp [hvariables, hpatterns, hrepository]
  | tagged tag content =>
    exact absurd h (Tree.untagged_ne_tagged tag content _)
  | _ => simp [of, Tree.text?, Tree.untagged]

theorem RuleEntry.key_ofSection {key : Tree} (h : key.untagged = key) (value : Tree) :
    (ofSection key value).key = key := by
  obtain ⟨_, hpatterns, hrepository⟩ := Section.of_eq_iff h
  unfold ofSection
  split
  · next hsection _ => exact (hpatterns.1 hsection).symm
  · next hsection _ => exact (hrepository.1 hsection).symm
  · rfl

/-- Entries without tagged keys in which no key comes twice, at any depth. -/
structure Entries.Plain (entries : Entries) : Prop where
  keys : entries.DistinctKeys
  tags : ∀ e ∈ entries, e.1.untagged = e.1
  values : ∀ e ∈ entries, e.2.wellKeyed = true

theorem RuleEntry.distinctKeys_ofSection {entries : Entries} (h : entries.Plain) :
    DistinctKeys (entries.map fun e => ofSection e.1 e.2) := by
  rw [DistinctKeys, List.pairwise_map]
  refine List.Pairwise.imp_of_mem ?_ h.keys
  intro a b ha hb hne
  rwa [key_ofSection (h.tags a ha), key_ofSection (h.tags b hb)]

namespace GrammarBody

/-- The rule that holds what a body holds. -/
def toRule (body : GrammarBody) : Rule :=
  ⟨.container, [], body.patterns, body.repository, [], body.attributes⟩

def toDraft (body : GrammarBody) : RuleDraft :=
  ⟨[], none, body.patterns, body.repository, [], body.attributes⟩

theorem finish_toDraft (body : GrammarBody) : body.toDraft.finish = body.toRule := rfl

theorem toTree_toRule (body : GrammarBody) : body.toRule.toTree = body.toTree := rfl

theorem toRule_mapPatterns (f : PatternField → String → String) (body : GrammarBody) :
    (body.mapPatterns f).toRule = body.toRule.mapPatterns f := rfl

/-- Adds an entry of a document that is understood. -/
def addEntry (body : GrammarBody) : RuleEntry → GrammarBody
  | .items rules => { body with patterns := some rules }
  | .named rules => { body with repository := some rules }
  | .other key value => { body with attributes := Entries.put body.attributes key value }
  | _ => body

def addSections (body : GrammarBody) (entries : Entries) : GrammarBody :=
  entries.foldl (fun body e => body.addEntry (.ofSection e.1 e.2)) body

theorem toDraft_addEntry_ofSection (body : GrammarBody) (key value : Tree) :
    (body.addEntry (.ofSection key value)).toDraft =
      body.toDraft.addEntry (.ofSection key value) := by
  unfold RuleEntry.ofSection
  split <;> rfl

theorem toDraft_addSections (body : GrammarBody) (entries : Entries) :
    (body.addSections entries).toDraft =
      (entries.map fun e => RuleEntry.ofSection e.1 e.2).foldl RuleDraft.addEntry body.toDraft := by
  induction entries generalizing body with
  | nil => rfl
  | cons e entries ih =>
    have hrest := ih (body.addEntry (.ofSection e.1 e.2))
    rw [toDraft_addEntry_ofSection] at hrest
    exact hrest

theorem entries_toRule_perm {entries : Entries} (h : entries.Plain) :
    (empty.addSections entries).toRule.entries.Perm
      (entries.map fun e => .ofSection e.1 e.2) := by
  have hread := RuleEntry.distinctKeys_ofSection h
  have hsound := RuleDraft.sound_empty.foldl_addEntry
    (entries.map fun e => RuleEntry.ofSection e.1 e.2)
  rw [← finish_toDraft, toDraft_addSections]
  exact (Rule.entries_finish_perm hsound).trans (RuleDraft.entries_foldl_empty_perm hread)

/-- The entries of a body whose patterns have been revised. -/
def written (f : PatternField → String → String) (body : GrammarBody) : Entries :=
  (body.mapPatterns f).toRule.entries.map RuleEntry.toEntry

section

variable {f : PatternField → String → String} {sections : Entries}

theorem toTree_mapPatterns (h : sections.Plain) :
    ((empty.addSections sections).mapPatterns f).toTree =
      .mapping ((empty.addSections sections).written f) := by
  rw [← toTree_toRule, written, toRule_mapPatterns]
  exact Rule.toTree_mapPatterns f (fun tree hkind => by cases hkind) (entries_toRule_perm h)
    (RuleEntry.distinctKeys_ofSection h)

/-- Every section is revised on its own and written, in some order. -/
theorem written_perm (h : sections.Plain) : ((empty.addSections sections).written f).Perm
    (sections.map fun e => ((RuleEntry.ofSection e.1 e.2).mapPatterns f).toEntry) := by
  have hperm := Rule.toEntry_entries_mapPatterns_perm f (entries_toRule_perm h)
  rw [List.map_map] at hperm
  rw [written, toRule_mapPatterns]
  exact hperm

end

end GrammarBody

namespace Document

theorem add_eq_ok_of_section {key : Tree} (h : Section.of key ≠ .variableTable) (value : Tree)
    (document : Document) : document.add key value =
      .ok { document with body := document.body.addEntry (.ofSection key value) } := by
  unfold add RuleEntry.ofSection
  cases hsection : Section.of key with
  | variableTable => exact absurd hsection h
  | patterns =>
    dsimp only
    cases Rule.itemsOf? value <;> rfl
  | repository =>
    dsimp only
    cases Rule.mapOf? value <;> rfl
  | _ => rfl

/-- Sections that declare no variables are always read. -/
theorem foldlM_add_of_sections {entries : Entries} (document : Document)
    (h : ∀ e ∈ entries, Section.of e.1 ≠ .variableTable) :
    entries.foldlM (fun document e => document.add e.1 e.2) document =
      .ok { document with body := document.body.addSections entries } := by
  induction entries generalizing document with
  | nil => rfl
  | cons e entries ih =>
    have hrest := ih { document with body := document.body.addEntry (.ofSection e.1 e.2) }
      fun e' he' => h e' (by simp [he'])
    rw [List.foldlM_cons, add_eq_ok_of_section (h e (by simp))]
    exact hrest

/-- The entries of a document that declare no variables. -/
def sections (entries : Entries) : Entries :=
  entries.filter fun e => decide (Section.of e.1 ≠ .variableTable)

theorem plain_sections {top : Entries} (hkeys : (Tree.mapping top).wellKeyed = true)
    (htags : ∀ e ∈ top, e.1.untagged = e.1) : (sections top).Plain where
  keys := List.Pairwise.filter _ (Tree.distinctKeys_of_wellKeyed hkeys)
  tags := fun e he => htags e (List.mem_of_mem_filter he)
  values := fun _ he => Tree.wellKeyed_of_mem_entries hkeys (List.mem_of_mem_filter he)

theorem body_of_add_variables {key value : Tree} (h : Section.of key = .variableTable)
    {document next : Document} (hadd : document.add key value = .ok next) :
    next.body = document.body := by
  unfold add at hadd
  rw [h] at hadd
  cases value with
  | mapping entries =>
    obtain ⟨table, _, hnext⟩ := bind_eq_ok_iff.1 hadd
    cases hnext
    rfl
  | null => cases hadd; rfl
  | _ => cases hadd

/-- The body of a document is read from the sections that declare no variables. -/
theorem body_of_foldlM_add {entries : Entries} {document result : Document}
    (h : entries.foldlM (fun document e => document.add e.1 e.2) document = .ok result) :
    result.body = document.body.addSections (sections entries) := by
  induction entries generalizing document with
  | nil => cases h; rfl
  | cons e entries ih =>
    rw [List.foldlM_cons] at h
    obtain ⟨next, hadd, hrest⟩ := bind_eq_ok_iff.1 h
    by_cases hsection : Section.of e.1 = .variableTable
    · rw [ih hrest, body_of_add_variables hsection hadd]
      simp [sections, hsection]
    · rw [add_eq_ok_of_section hsection] at hadd
      cases hadd
      rw [ih hrest]
      simp [sections, hsection, GrammarBody.addSections]

/-- A document that is read is a mapping. -/
theorem body_of_ofTree {tree : Tree} {document : Document} (h : ofTree tree = .ok document) :
    ∃ entries, tree = .mapping entries ∧
      document.body = GrammarBody.empty.addSections (sections entries) := by
  cases tree with
  | mapping entries => exact ⟨entries, rfl, body_of_foldlM_add h⟩
  | _ => cases h

end Document

namespace GrammarLoader

variable [MatcherEngine] {loader : GrammarLoader}

/-- Resolving a document succeeds when the revised variables are recorded. -/
theorem resolve_eq_ok_iff {document : Document} {grammar : Grammar} :
    loader.resolve document = .ok grammar ↔
      ∃ resolver, VariableResolver.ofTable (loader.revise document.variableTable) = .ok resolver ∧
        resolver.resolve document.body = grammar := by
  rw [resolve, bind_eq_ok_iff]
  simp only [mapError_eq_ok_iff, pure, Except.pure, Except.ok.injEq]

theorem loadTree_eq_ok_iff {origin : String} {tree : Tree} {grammar : Grammar} :
    loader.loadTree origin tree = .ok grammar ↔
      ∃ document, Document.ofTree tree = .ok document ∧ loader.resolve document = .ok grammar := by
  rw [loadTree, bind_eq_ok_iff]
  simp only [mapError_eq_ok_iff]

end GrammarLoader

end HighlightGrammar

import HighlightGrammar.Proofs.Documents.Sections
import HighlightGrammar.Proofs.Rules.Rereading
import HighlightGrammar.Proofs.Variables.FullExpansion

/-!
# Resolving a resolved grammar

A resolved grammar is written without its variables. When they are put back anywhere among its
entries the tree is a document with the resolved body. Every text of it has been expanded, and
expanding it again changes nothing, so the document is resolved to the same grammar. -/
namespace HighlightGrammar

namespace VariableTable

/-- The tree of a table as a document declares it. -/
def toTree (table : VariableTable) : Tree :=
  .mapping (table.entries.map fun e => (.string e.1, .string e.2))

theorem entries_insertAll (table : VariableTable) (entries : List (String × String)) :
    (table.insertAll entries).entries = Table.putAll (· == ·) table.entries entries := by
  induction entries generalizing table with
  | nil => rfl
  | cons e entries ih => exact ih (table.insert e.1 e.2)

theorem insertAll_entries (table : VariableTable) : empty.insertAll table.entries = table := by
  have hentries : (empty.insertAll table.entries).entries = table.entries := by
    rw [entries_insertAll]
    exact Table.ofList_of_nodup table.distinct
  cases hinsert : empty.insertAll table.entries
  cases table
  rw [hinsert] at hentries
  cases hentries
  rfl

end VariableTable

/-- Entries that declare variables are read before what follows them. -/
theorem Document.variablesOf_append (declared : List (String × String)) (table : VariableTable)
    (rest : Entries) :
    variablesOf ((declared.map fun e => (.string e.1, .string e.2)) ++ rest) table =
      variablesOf rest (table.insertAll declared) := by
  induction declared generalizing table with
  | nil => rfl
  | cons e declared ih => exact ih (table.insert e.1 e.2)

theorem Document.variablesOf_strings (entries : List (String × String)) (table : VariableTable) :
    variablesOf (entries.map fun e => (.string e.1, .string e.2)) table =
      .ok (table.insertAll entries) := by
  have happend := variablesOf_append entries table []
  rwa [List.append_nil] at happend

theorem Document.add_variables (document : Document) (table : VariableTable) :
    document.add (.string "variables") table.toTree =
      .ok { document with variableTable := table } := by
  have hread : variablesOf (table.entries.map fun e => (.string e.1, .string e.2)) .empty =
      .ok table := by
    rw [variablesOf_strings, VariableTable.insertAll_entries]
  calc document.add (.string "variables") table.toTree
      = (do
          let declared ← variablesOf (table.entries.map fun e => (.string e.1, .string e.2)) .empty
          return { document with variableTable := declared }) := rfl
    _ = .ok { document with variableTable := table } := by rw [hread]; rfl

namespace RuleEntry

variable {f : PatternField → String → String}

theorem holds_ofSection (key value : Tree) : (ofSection key value).Holds key value := by
  unfold ofSection
  split
  · next hread => exact hread
  · next hread => exact hread
  · exact ⟨rfl, rfl⟩

/-- A section is understood as it was after it has been revised and written. -/
theorem ofSection_toEntry_mapPatterns {key value : Tree} (hkeys : value.wellKeyed = true) :
    ofSection ((ofSection key value).mapPatterns f).toEntry.1
      ((ofSection key value).mapPatterns f).toEntry.2 = (ofSection key value).mapPatterns f := by
  have hholds := holds_ofSection key value
  have hreadable := readable_mapPatterns hholds hkeys fun inner _ => Rule.rereads (f := f) inner
  cases hentry : ofSection key value with
  | other k v =>
    rw [hentry] at hholds
    obtain ⟨rfl, rfl⟩ := hholds
    exact hentry
  | items rules =>
    rw [hentry] at hreadable
    have hread : Rule.itemsOf? (.sequence (Rule.itemTrees (rules.map (Rule.mapPatterns f)))) =
        some (rules.map (Rule.mapPatterns f)) := hreadable
    have hsection : Section.of (.string "patterns") = .patterns := rfl
    simp only [mapPatterns, toEntry, ofSection, hsection, hread]
  | named rules =>
    rw [hentry] at hreadable
    have hread : Rule.mapOf? (.mapping (Rule.namedTrees (rules.mapPatterns f))) =
        some (rules.mapPatterns f) := hreadable
    have hsection : Section.of (.string "repository") = .repository := rfl
    simp only [mapPatterns, toEntry, ofSection, hsection, hread]
  | _ => unfold ofSection at hentry; split at hentry <;> cases hentry

end RuleEntry

namespace GrammarBody

theorem toDraft_injective {body other : GrammarBody} (h : body.toDraft = other.toDraft) :
    body = other := by
  cases body
  cases other
  cases h
  rfl

theorem toRule_injective {body other : GrammarBody} (h : body.toRule = other.toRule) :
    body = other := by
  cases body
  cases other
  cases h
  rfl

theorem visits_toRule (body : GrammarBody) : body.toRule.visits .root = body.visits := rfl

/-- Revisions that leave the revised texts alone change a body no further. -/
theorem mapPatterns_of_fixed {f : PatternField → String → String} {body : GrammarBody}
    (h : ∀ visit ∈ body.visits,
      f visit.field (f visit.field visit.text) = f visit.field visit.text) :
    (body.mapPatterns f).mapPatterns f = body.mapPatterns f := by
  apply toRule_injective
  rw [toRule_mapPatterns, toRule_mapPatterns, Rule.mapPatterns_mapPatterns]
  apply Rule.mapPatterns_congr body.toRule .root
  rw [visits_toRule]
  exact h

section

variable {f : PatternField → String → String} {sections : Entries}

theorem sound_toDraft_addSections : (empty.addSections sections).toDraft.Sound := by
  rw [toDraft_addSections]
  exact RuleDraft.sound_empty.foldl_addEntry _

/-- The entries of a revised body are read as the revised body. -/
theorem addSections_written (h : sections.Plain) :
    empty.addSections ((empty.addSections sections).written f) =
      (empty.addSections sections).mapPatterns f := by
  have hread : ((empty.addSections sections).written f).map
      (fun e => RuleEntry.ofSection e.1 e.2) =
      ((empty.addSections sections).mapPatterns f).toRule.entries := by
    have hsame : ∀ entry ∈ ((empty.addSections sections).mapPatterns f).toRule.entries,
        RuleEntry.ofSection entry.toEntry.1 entry.toEntry.2 = entry := by
      intro entry hentry
      rw [toRule_mapPatterns, Rule.entries_mapPatterns] at hentry
      obtain ⟨read, hread, rfl⟩ := List.mem_map.1 hentry
      obtain ⟨e, he, rfl⟩ := List.mem_map.1 ((entries_toRule_perm h).mem_iff.1 hread)
      exact RuleEntry.ofSection_toEntry_mapPatterns (h.values e he)
    rw [written, List.map_map]
    exact (List.map_congr_left hsame).trans (List.map_id _)
  have hsound : ((empty.addSections sections).mapPatterns f).toRule.toDraft.Sound :=
    ⟨List.nodup_nil, List.nodup_nil, sound_toDraft_addSections.attributes⟩
  apply toDraft_injective
  rw [toDraft_addSections, hread]
  exact Rule.foldl_entries hsound

end

end GrammarBody

namespace Document

/-- Variables that are put among other sections are read with them. -/
theorem ofTree_with_variables {before after : Entries} (table : VariableTable)
    (h : ∀ e ∈ before ++ after, Section.of e.1 ≠ .variableTable) :
    ofTree (.mapping (before ++ (.string "variables", table.toTree) :: after)) =
      .ok ⟨GrammarBody.empty.addSections (before ++ after), table⟩ := by
  have hbefore := foldlM_add_of_sections empty fun e he => h e (List.mem_append_left _ he)
  have hafter := foldlM_add_of_sections ⟨GrammarBody.empty.addSections before, table⟩
    fun e he => h e (List.mem_append_right _ he)
  have happend : GrammarBody.empty.addSections (before ++ after) =
      (GrammarBody.empty.addSections before).addSections after := List.foldl_append
  have hvariables := add_variables ⟨GrammarBody.empty.addSections before, .empty⟩ table
  rw [ofTree, List.foldlM_append, happend]
  refine bind_eq_ok_iff.2 ⟨_, hbefore, ?_⟩
  rw [List.foldlM_cons]
  exact bind_eq_ok_iff.2 ⟨_, hvariables, hafter⟩

/-- A revised body that is written, with variables put among its entries, is read as a document with
this body and these variables. -/
theorem ofTree_written {f : PatternField → String → String} {top before after : Entries}
    (h : (sections top).Plain) (table : VariableTable)
    (hwritten : (GrammarBody.empty.addSections (sections top)).written f = before ++ after) :
    ofTree (.mapping (before ++ (.string "variables", table.toTree) :: after)) =
      .ok ⟨(GrammarBody.empty.addSections (sections top)).mapPatterns f, table⟩ := by
  have hsections : ∀ e ∈ before ++ after, Section.of e.1 ≠ .variableTable := by
    intro entry hentry
    rw [← hwritten] at hentry
    obtain ⟨e, he, rfl⟩ := List.mem_map.1 ((GrammarBody.written_perm h).mem_iff.1 hentry)
    have hkey := (RuleEntry.key_mapPatterns f _).trans
      (RuleEntry.key_ofSection (h.tags e he) e.2)
    have hsection : Section.of e.1 ≠ .variableTable := by
      simpa using (List.mem_filter.1 he).2
    rw [← hkey] at hsection
    exact hsection
  rw [ofTree_with_variables table hsections, ← hwritten, GrammarBody.addSections_written h]

end Document

/-- Without cycles a resolved body holds nothing that would be expanded again. -/
theorem VariableResolver.resolve_resolve [MatcherEngine] {table : VariableTable}
    {resolver : VariableResolver} {body : GrammarBody}
    (hresolver : ofTable table = .ok resolver) (hwell : table.WellFormed)
    (hacyclic : Acyclic table.entries)
    (htexts : ∀ visit ∈ body.visits, IsTemplate visit.text.toList) :
    resolver.resolve (resolver.resolve body).body = resolver.resolve body := by
  apply congrArg Grammar.mk
  refine GrammarBody.mapPatterns_of_fixed fun visit hvisit => ?_
  rw [eq_ofVariables_of_ofTable hresolver, ← String.toList_inj, toList_expand, toList_expand]
  exact expandChars_expandChars hwell.templated hwell.distinguished hacyclic (htexts visit hvisit)

namespace GrammarLoader

open VariableResolver

/-- Resolving is idempotent: a resolved grammar with the variables of its document put back,
wherever among its entries, is loaded as the same grammar. -/
theorem loadTree_resolved [MatcherEngine] {loader : GrammarLoader} {origin : String} {tree : Tree}
    {document : Document} {grammar : Grammar} (hkeys : tree.wellKeyed = true)
    (htags : ∀ e ∈ tree.entries, e.1.untagged = e.1) (hread : Document.ofTree tree = .ok document)
    (hwell : (loader.revise document.variableTable).WellFormed)
    (hacyclic : Acyclic (loader.revise document.variableTable).entries)
    (htexts : ∀ visit ∈ document.body.visits, IsTemplate visit.text.toList)
    (hload : loader.loadTree origin tree = .ok grammar) :
    ∃ written, grammar.toTree = .mapping written ∧ ∀ before after, written = before ++ after →
      loader.loadTree origin (.mapping
        (before ++ (.string "variables", document.variableTable.toTree) :: after)) =
          .ok grammar := by
  obtain ⟨document', hread', hresolve⟩ := loadTree_eq_ok_iff.1 hload
  obtain rfl : document = document' := Except.ok.inj (hread.symm.trans hread')
  obtain ⟨resolver, hresolver, rfl⟩ := resolve_eq_ok_iff.1 hresolve
  obtain ⟨top, rfl, hbody⟩ := Document.body_of_ofTree hread
  have hplain := Document.plain_sections hkeys htags
  have hagain := resolve_resolve hresolver hwell hacyclic htexts
  have htree : (resolver.resolve document.body).toTree =
      .mapping (document.body.written fun _ => resolver.expand) := by
    rw [hbody]
    exact GrammarBody.toTree_mapPatterns hplain
  refine ⟨_, htree, fun before after hwritten => ?_⟩
  rw [hbody] at hwritten
  have hdocument := Document.ofTree_written hplain document.variableTable hwritten
  rw [← hbody] at hdocument
  exact loadTree_eq_ok_iff.2 ⟨_, hdocument, resolve_eq_ok_iff.2 ⟨resolver, hresolver, hagain⟩⟩

attribute [local instance] MatcherEngine.unlimited

/-- A variable that refers to a later one, and a rule with a group and a nested rule. -/
def wordsTree : Tree := .mapping [
  (.string "repository", .mapping [(.string "words", .mapping [
    (.string "captures", .mapping [(.number (.int 1), .mapping [(.string "name", .string "w")])]),
    (.string "match", .string "({{Word}})"),
    (.string "include", .string "#words"),
    (.string "patterns", .sequence [.null, .mapping [(.string "end", .string "{{first}}$")]])])]),
  (.string "variables", .mapping [
    (.string "word", .string "{{first}}[a-z]*"),
    (.string "first", .string "[a-z]")]),
  (.string "scopeName", .string "source.4gl")]

def wordsDocument : Document where
  body :=
    { attributes := [(.string "scopeName", .string "source.4gl")]
      patterns := none
      repository := some [("words",
        { kind := .reference "#words"
          extra := [(.matchPattern, "({{Word}})")]
          patterns := some [.ofVerbatim .null,
            ⟨.container, [(.endPattern, "{{first}}$")], none, none, [], []⟩]
          repository := none
          captures := [(.captures, [("1",
            ⟨.container, [], none, none, [], [(.string "name", .string "w")]⟩)])]
          attributes := [] })] }
  variableTable := .ofList [("word", "{{first}}[a-z]*"), ("first", "[a-z]")]

def capitals : GrammarLoader := plain.withOverrides (.ofList [("first", "[A-Z]")])

theorem loadTree_resolved_words : ∃ grammar written,
    capitals.loadTree "words" wordsTree = .ok grammar ∧ grammar.toTree = .mapping written ∧
      capitals.loadTree "words" (.mapping
        (written ++ [(.string "variables", wordsDocument.variableTable.toTree)])) =
          .ok grammar := by
  have hread : Document.ofTree wordsTree = .ok wordsDocument := rfl
  have hresolver : ofTable (capitals.revise wordsDocument.variableTable) =
      .ok (ofVariables (capitals.revise wordsDocument.variableTable).entries) :=
    ofTable_unlimited _
  have hload : capitals.loadTree "words" wordsTree =
      .ok (VariableResolver.resolve _ wordsDocument.body) :=
    loadTree_eq_ok_iff.2 ⟨_, hread, resolve_eq_ok_iff.2 ⟨_, hresolver, rfl⟩⟩
  have hacyclic : Acyclic (capitals.revise wordsDocument.variableTable).entries := by
    refine acyclic_of_rank (fun v => ["first", "word"].idxOf v.1) ?_
    decide +kernel
  obtain ⟨written, htree, hagain⟩ := loadTree_resolved (by decide +kernel)
    (by simp [wordsTree, Tree.entries, Tree.untagged]) hread (by decide +kernel) hacyclic
    (by decide +kernel) hload
  exact ⟨_, written, hload, htree, hagain written [] (by simp)⟩

end GrammarLoader

end HighlightGrammar

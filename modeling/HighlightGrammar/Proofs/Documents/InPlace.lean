import HighlightGrammar.Grammar.Loader
import HighlightGrammar.Proofs.Documents.Rewriting

/-!
# Resolution works in place

The rules of a tree are read, their patterns are revised, and they are written again. Each entry of
a rule is rewritten on its own, by induction on the tree; since reading and writing keep the
entries, the rule as a whole is rewritten in place, up to the order of entries inside mappings. A
document is resolved in the same way. -/
namespace HighlightGrammar

open HighlightGrammar.Tree

variable {f : String → String}

/-- Reading, revising and writing a rule rewrites its tree in place. -/
def RewritesInPlace (f : String → String) (tree : Tree) : Prop :=
  tree.wellKeyed = true → (∀ rules ∈ tree.ruleMaps, Entries.DistinctNames rules) →
    Reordered ((Rule.ofTree tree).mapPatterns fun _ => f).toTree (tree.rewriteRule f)

theorem rewriteItems_of_none {value : Tree} (h : Rule.itemsOf? value = none) :
    value.rewriteItems f = value := by
  cases value with
  | sequence items => cases h
  | _ => rfl

theorem rewriteMap_of_none {value : Tree} (h : Rule.mapOf? value = none) :
    value.rewriteMap f = value := by
  cases value with
  | mapping entries =>
    have hnamed : Rule.allNamed entries ≠ true := by
      intro hnamed
      simp [Rule.mapOf?, hnamed] at h
    rw [rewriteMap, if_neg hnamed]
  | _ => rfl

theorem reordered_items {value : Tree} {rules : List Rule}
    (hread : Rule.itemsOf? value = some rules) (hkeys : value.wellKeyed = true)
    (hnames : ∀ rules ∈ value.itemRuleMaps, Entries.DistinctNames rules)
    (ih : ∀ inner, Inside inner value → RewritesInPlace f inner) :
    Reordered (.sequence (Rule.itemTrees (rules.map (Rule.mapPatterns fun _ => f))))
      (value.rewriteItems f) := by
  obtain ⟨items, rfl, rfl⟩ := Rule.itemsOf?_eq_some_iff.1 hread
  rw [itemRuleMaps, eachRuleMaps_eq_flatMap] at hnames
  rw [rewriteItems, rewriteEach_eq_map, Rule.itemTrees_eq_map, List.map_map, List.map_map]
  refine .sequence_map fun item hitem => ?_
  have hinside : Inside item (.sequence items) := .item hitem
  exact ih item hinside (hinside.wellKeyed hkeys) fun rules hrules =>
    hnames rules (List.mem_flatMap.2 ⟨item, hitem, hrules⟩)

theorem reordered_map {value : Tree} {rules : RuleMap} (hread : Rule.mapOf? value = some rules)
    (hkeys : value.wellKeyed = true)
    (hnames : ∀ rules ∈ value.mapRuleMaps, Entries.DistinctNames rules)
    (ih : ∀ inner, Inside inner value → RewritesInPlace f inner) :
    Reordered (.mapping (Rule.namedTrees (rules.mapPatterns fun _ => f))) (value.rewriteMap f) := by
  obtain ⟨entries, rfl, hnamed, rfl⟩ := Rule.mapOf?_eq_some_iff.1 hread
  rw [mapRuleMaps, if_pos hnamed, namedRuleMaps_eq_flatMap] at hnames
  have hdistinct : ((Rule.readNamed entries).map Prod.fst).Nodup := by
    rw [Rule.keys_readNamed]
    exact hnames entries (by simp)
  have hwritten : Rule.namedTrees (RuleMap.mapPatterns (fun _ => f) (Rule.readNamed entries)) =
      entries.map fun e => (nameKey e.1, ((Rule.ofTree e.2).mapPatterns fun _ => f).toTree) := by
    rw [Rule.namedTrees_eq_map, RuleMap.mapPatterns, Rule.readNamed_eq_map hnamed, List.map_map,
      List.map_map]
    refine List.map_congr_left fun e he => ?_
    obtain ⟨name, hname⟩ := Option.isSome_iff_exists.1 (List.all_eq_true.1 hnamed e he)
    simp [nameKey, hname]
  rw [rewriteMap, if_pos hnamed, rewriteNamed_eq_map, Table.ofList_of_nodup hdistinct, hwritten]
  refine .mapping_map (List.Perm.refl _) (fun _ _ => rfl) fun e he => ?_
  have hinside : Inside e.2 (.mapping entries) := .of_mem he
  exact ih e.2 hinside (hinside.wellKeyed hkeys) fun rules hrules =>
    hnames rules (List.mem_cons_of_mem _ (List.mem_flatMap.2 ⟨e, he, hrules⟩))

theorem reordered_entry {key value : Tree} (hkeys : value.wellKeyed = true)
    (hnames : ∀ rules ∈ valueRuleMaps key value, Entries.DistinctNames rules)
    (ih : ∀ inner, Inside inner value → RewritesInPlace f inner) :
    Reordered ((RuleEntry.ofTree key value).mapPatterns fun _ => f).toEntry.2
      (rewriteField f key value) := by
  cases key with
  | string name =>
    rw [rewriteField_string, RuleEntry.ofTree_string]
    rw [valueRuleMaps_string] at hnames
    cases hrole : FieldRole.of name with
    | pattern field => cases value <;> exact .refl _
    | includeTarget => cases value <;> exact .refl _
    | patterns =>
      rw [hrole] at hnames
      cases hread : Rule.itemsOf? value with
      | none =>
        dsimp only
        rw [rewriteItems_of_none hread]
        exact .refl _
      | some rules => exact reordered_items hread hkeys hnames ih
    | repository | captures =>
      rw [hrole] at hnames
      cases hread : Rule.mapOf? value with
      | none =>
        dsimp only
        rw [rewriteMap_of_none hread]
        exact .refl _
      | some rules => exact reordered_map hread hkeys hnames ih
    | _ => exact .refl _
  | _ => exact .refl _

theorem rewritesInPlace (tree : Tree) : RewritesInPlace f tree := by
  induction tree using ruleInduction with
  | other tree h =>
    intro _ _
    cases tree with
    | mapping es => exact absurd rfl (h es)
    | _ => exact .refl _
  | mapping es ih =>
    intro hkeys hnames
    have hdistinct := distinctKeys_of_wellKeyed hkeys
    rw [ruleMaps, fieldRuleMaps_eq_flatMap] at hnames
    -- The entries are written in another order, and each one is rewritten by itself.
    have hentries := Rule.entries_ofTree_perm hdistinct
    have hperm := Rule.toEntry_entries_mapPatterns_perm (fun _ => f) hentries
    rw [Rule.toTree_mapPatterns (fun _ => f) (Rule.kind_ofTree_mapping es) hentries
      (RuleEntry.distinctKeys_ofTree hdistinct), rewriteRule, rewriteFields_eq_map]
    rw [List.map_map] at hperm
    refine .mapping_map hperm (fun e _ => ?_) fun e he => ?_
    · exact (RuleEntry.key_mapPatterns _ _).trans (RuleEntry.key_ofTree e.1 e.2)
    · exact reordered_entry (wellKeyed_of_mem_entries hkeys he)
        (fun rules hrules => hnames rules (List.mem_flatMap.2 ⟨e, he, hrules⟩)) (ih e he)

theorem rewriteSection_of_ne {key : Tree} (value : Tree) (hpatterns : key ≠ .string "patterns")
    (hrepository : key ≠ .string "repository") : rewriteSection f key value = value := by
  cases key with
  | string name =>
    have hname : name ≠ "patterns" ∧ name ≠ "repository" :=
      ⟨fun h => hpatterns (congrArg _ h), fun h => hrepository (congrArg _ h)⟩
    simp [rewriteSection, plainText?, hname]
  | _ => rfl

theorem reordered_section {key value : Tree} (htags : key.untagged = key)
    (hkeys : value.wellKeyed = true)
    (hnames : ∀ rules ∈ sectionRuleMaps key value, Entries.DistinctNames rules) :
    Reordered ((RuleEntry.ofSection key value).mapPatterns fun _ => f).toEntry.2
      (rewriteSection f key value) := by
  obtain ⟨hvariables, hpatterns, hrepository⟩ := Section.of_eq_iff htags
  unfold RuleEntry.ofSection
  cases hsection : Section.of key with
  | variableTable =>
    obtain rfl := hvariables.1 hsection
    exact .refl _
  | patterns =>
    obtain rfl := hpatterns.1 hsection
    cases hread : Rule.itemsOf? value with
    | none =>
      have hsame : rewriteSection f (.string "patterns") value = value := rewriteItems_of_none hread
      rw [hsame]
      exact .refl _
    | some rules => exact reordered_items hread hkeys hnames fun inner _ => rewritesInPlace inner
  | repository =>
    obtain rfl := hrepository.1 hsection
    cases hread : Rule.mapOf? value with
    | none =>
      have hsame : rewriteSection f (.string "repository") value = value := rewriteMap_of_none hread
      rw [hsame]
      exact .refl _
    | some rules => exact reordered_map hread hkeys hnames fun inner _ => rewritesInPlace inner
  | _ =>
    rw [rewriteSection_of_ne value (fun h => by simp [hpatterns.2 h] at hsection)
      fun h => by simp [hrepository.2 h] at hsection]
    exact .refl _

namespace GrammarLoader

/-- The tree of a resolved grammar is the tree of its document, without the variables and with the
texts at rule positions expanded, up to the order of entries inside mappings. -/
theorem reordered_toTree_of_resolve [MatcherEngine] {loader : GrammarLoader} {tree : Tree}
    {document : Document} {grammar : Grammar} (hkeys : tree.wellKeyed = true)
    (htags : ∀ e ∈ tree.entries, e.1.untagged = e.1)
    (hnames : ∀ rules ∈ tree.documentRuleMaps, Entries.DistinctNames rules)
    (hread : Document.ofTree tree = .ok document)
    (hresolve : loader.resolve document = .ok grammar) :
    ∃ resolver, VariableResolver.ofTable (loader.revise document.variableTable) = .ok resolver ∧
      Reordered grammar.toTree (tree.rewriteDocument resolver.expand) := by
  obtain ⟨resolver, hresolver, rfl⟩ := resolve_eq_ok_iff.1 hresolve
  obtain ⟨top, rfl, hbody⟩ := Document.body_of_ofTree hread
  refine ⟨resolver, hresolver, ?_⟩
  have hsections : Document.sections top =
      top.filter fun e => decide (e.1.plainText? ≠ some "variables") := by
    refine List.filter_congr fun e he => decide_eq_decide.2 (not_congr ?_)
    rw [(Section.of_eq_iff (htags e he)).1, plainText?_eq_some_iff]
  have hmem : ∀ e ∈ Document.sections top, e ∈ top := fun e he => List.mem_of_mem_filter he
  have hplain := Document.plain_sections hkeys htags
  have htree : (resolver.resolve document.body).toTree =
      .mapping (document.body.written fun _ => resolver.expand) := by
    rw [hbody]
    exact GrammarBody.toTree_mapPatterns hplain
  have hperm := GrammarBody.written_perm (f := fun _ => resolver.expand) hplain
  rw [← hbody] at hperm
  rw [htree, rewriteDocument, ← hsections]
  refine .mapping_map hperm (fun e he => ?_) fun e he => ?_
  · exact (RuleEntry.key_mapPatterns _ _).trans (RuleEntry.key_ofSection (hplain.tags e he) e.2)
  · exact reordered_section (hplain.tags e he) (hplain.values e he)
      fun rules hrules => hnames rules (List.mem_flatMap.2 ⟨e, hmem e he, hrules⟩)

attribute [local instance] MatcherEngine.unlimited

/-- A target beside a pattern, a pattern that is no string, and a group named by a number. -/
def callsTree : Tree := .mapping [
  (.string "scopeName", .string "source.4gl"),
  (.string "variables", .mapping [(.string "word", .string "[a-z]+")]),
  (.string "patterns", .sequence [.mapping [
    (.string "include", .string "#calls"),
    (.string "match", .string "call {{word}}"),
    (.string "name", .string "{{word}}")]]),
  (.string "repository", .mapping [(.string "calls", .mapping [
    (.string "begin", .string "{{Word}}\\("),
    (.string "end", .number (.int 1)),
    (.string "captures", .mapping [
      (.number (.int 0), .mapping [(.string "match", .string "{{other}}{{word}}")])])])])]

def callsDocument : Document where
  body :=
    { attributes := [(.string "scopeName", .string "source.4gl")]
      patterns := some [
        { kind := .reference "#calls"
          extra := [(.matchPattern, "call {{word}}")]
          patterns := none
          repository := none
          captures := []
          attributes := [(.string "name", .string "{{word}}")] }]
      repository := some [("calls",
        { kind := .region "{{Word}}\\(" none none
          extra := []
          patterns := none
          repository := none
          captures := [(.captures, [("0", ⟨.single "{{other}}{{word}}", [], none, none, [], []⟩)])]
          attributes := [(.string "end", .number (.int 1))] })] }
  variableTable := .ofList [("word", "[a-z]+")]

theorem reordered_toTree_calls : ∃ grammar, plain.resolve callsDocument = .ok grammar ∧
    ∃ resolver, VariableResolver.ofTable (plain.revise callsDocument.variableTable) = .ok resolver ∧
      Reordered grammar.toTree (callsTree.rewriteDocument resolver.expand) := by
  have hresolve : plain.resolve callsDocument =
      .ok (VariableResolver.resolve _ callsDocument.body) := resolve_eq_ok_iff.2 ⟨_, rfl, rfl⟩
  exact ⟨_, hresolve, reordered_toTree_of_resolve (by decide +kernel)
    (by simp [callsTree, entries, untagged]) (by decide +kernel) rfl hresolve⟩

end GrammarLoader

end HighlightGrammar

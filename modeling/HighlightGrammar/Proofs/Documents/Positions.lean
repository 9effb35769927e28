import HighlightGrammar.Proofs.Documents.Unresolved
import HighlightGrammar.Proofs.Documents.Written
import HighlightGrammar.Proofs.Rules.Listing

/-!
# Where the listing finds texts

The listing of a body gives every pattern text with a path. Followed from the root of the tree that
is written for the body, the path leads to the mapping that holds the text, whether the body was
resolved or not. No field is listed twice, and no string in a pattern field of a mapping is left out
where the tree expects a rule. -/
namespace HighlightGrammar

namespace GrammarBody

/-- The keys of a document under which rules stand. -/
def sectionKeys : List String := ["patterns", "repository"]

theorem ofTree_eq_other_of_ofSection {name : String} (hname : name ∈ sectionKeys) {value : Tree}
    (h : RuleEntry.ofSection (.string name) value = .other (.string name) value) :
    RuleEntry.ofTree (.string name) value = .other (.string name) value := by
  simp only [sectionKeys, List.mem_cons, List.not_mem_nil, or_false] at hname
  rcases hname with rfl | rfl
  · have hsection : Section.of (.string "patterns") = .patterns := rfl
    have hrole : FieldRole.of "patterns" = .patterns := FieldRole.of_key rfl
    rw [RuleEntry.ofSection, hsection] at h
    rw [RuleEntry.ofTree_string, hrole]
    cases hitems : Rule.itemsOf? value with
    | none => rfl
    | some rules => rw [hitems] at h; cases h
  · have hsection : Section.of (.string "repository") = .repository := rfl
    have hrole : FieldRole.of "repository" = .repository := FieldRole.of_key rfl
    rw [RuleEntry.ofSection, hsection] at h
    rw [RuleEntry.ofTree_string, hrole]
    cases hrules : Rule.mapOf? value with
    | none => rfl
    | some rules => rw [hrules] at h; cases h

/-- A body was read from a document and then revised. -/
structure IsRevised (f : PatternField → String → String) (body : GrammarBody) : Prop where
  faithful : body.toRule.Faithful sectionKeys
  nested : ∀ key name inner, Rule.Nested body.toRule key name inner → inner.IsRevised f

variable {f : PatternField → String → String} {body : GrammarBody}

theorem isRevised_of_ofTree {tree : Tree} {document : Document} (hkeys : tree.wellKeyed = true)
    (h : Document.ofTree tree = .ok document) : (document.body.mapPatterns f).IsRevised f := by
  have hkeyed : document.body.toRule.Keyed := Document.keyedThroughout_body h [] _ (.here _)
  obtain ⟨entries, rfl, hbody⟩ := Document.body_of_ofTree h
  have hdraft : document.body.toDraft.Faithful sectionKeys := by
    rw [hbody, toDraft_addSections]
    refine RuleDraft.faithful_foldl RuleEntry.holds_ofSection
      (fun name hname _ hother => ofTree_eq_other_of_ofSection hname hother) (fun e he => ?_)
      RuleDraft.faithful_empty
    exact (Tree.wellKeyed_mapping_iff.1 hkeys).2 e (List.mem_of_mem_filter he)
  constructor
  · rw [toRule_mapPatterns]
    exact (hdraft.finish hkeyed).mapPatterns
  · intro key name inner hinner
    rw [toRule_mapPatterns] at hinner
    obtain ⟨read, hread, rfl⟩ := hinner.of_mapPatterns
    exact ⟨read, hdraft.nested _ _ _ hread, rfl⟩

namespace IsRevised

theorem wellKeyed_toTree (h : body.IsRevised f) : body.toTree.wellKeyed = true := by
  rw [← toTree_toRule]
  exact h.faithful.wellKeyed_toTree fun key name inner hinner =>
    (h.nested key name inner hinner).wellKeyed_toTree

theorem of_at (h : body.IsRevised f) {place : List String} {inner : Rule} (hplace : place ≠ [])
    (hat : Rule.At body.toRule place inner) : inner.IsRevised f := by
  cases hat with
  | here => exact absurd rfl hplace
  | inside step rest => exact (h.nested _ _ _ step).of_at rest

/-- Where the tree of a body expects a rule stands the tree of a rule of the body. -/
theorem documentRuleAt_iff (h : body.IsRevised f) {place : List String} {tree : Tree} :
    Tree.DocumentRuleAt body.toTree place tree ↔
      ∃ inner, place ≠ [] ∧ Rule.At body.toRule place inner ∧ inner.toTree = tree := by
  have hbelow : ∀ {key name : String} {nested : Tree},
      Tree.RuleBelow ["repository"] body.toTree key name nested ↔
        ∃ inner, Rule.Nested body.toRule key name inner ∧ inner.toTree = nested := by
    rw [← toTree_toRule]
    exact h.faithful.ruleBelow_iff (by decide) (by decide) (by decide) nofun
  constructor
  · rintro ⟨key, name, nested, rest, rfl, hstep, hat⟩
    obtain ⟨inner, hnested, rfl⟩ := hbelow.1 hstep
    obtain ⟨deep, hdeep, htree⟩ := (h.nested _ _ _ hnested).ruleAt_iff.1 hat
    exact ⟨deep, List.cons_ne_nil _ _, .inside hnested hdeep, htree⟩
  · rintro ⟨inner, hplace, hat, htree⟩
    cases hat with
    | here => exact absurd rfl hplace
    | inside step rest =>
      exact ⟨_, _, _, _, rfl, hbelow.2 ⟨_, step, rfl⟩,
        (h.nested _ _ _ step).ruleAt_iff.2 ⟨inner, rest, htree⟩⟩

/-- The texts of a body are the strings in pattern fields where its tree expects rules. -/
theorem hasField_iff (h : body.IsRevised f) {place : RulePath} {field : PatternField}
    {text : String} : body.HasField place field text ↔ ∃ entries,
      Tree.DocumentRuleAt body.toTree place.segments (.mapping entries) ∧
        (.string field.key, .string text) ∈ entries := by
  constructor
  · rintro ⟨rule, hat, hmem⟩
    have hplace : place.segments ≠ [] := HasField.segments_ne_nil ⟨rule, hat, hmem⟩
    have hentry := (h.of_at hplace hat).mem_texts_iff.1 hmem
    obtain ⟨entries, htree⟩ := Tree.exists_mapping_of_mem_entries hentry
    rw [htree] at hentry
    exact ⟨entries, h.documentRuleAt_iff.2 ⟨rule, hplace, hat, htree⟩, hentry⟩
  · rintro ⟨entries, hat, hentry⟩
    obtain ⟨rule, hplace, hrule, htree⟩ := h.documentRuleAt_iff.1 hat
    refine ⟨rule, hrule, (h.of_at hplace hrule).mem_texts_iff.2 ?_⟩
    rw [htree]
    exact hentry

end IsRevised

/-- The listing of a body gives the strings in pattern fields of its tree, each one once and with the
path that leads there. -/
structure ListsExactly (body : GrammarBody) : Prop where
  distinct : (body.visits.map Visit.position).Nodup
  reached : ∀ visit ∈ body.visits, ∃ entries,
    body.toTree.follow visit.path.segments = some (.mapping entries) ∧
      Entries.get? entries visit.field.key = some (.string visit.text)
  complete : ∀ place entries, Tree.DocumentRuleAt body.toTree place (.mapping entries) →
    ∀ (field : PatternField) (text : String), (.string field.key, .string text) ∈ entries →
      ⟨⟨place⟩, field, text⟩ ∈ body.visits

theorem IsRevised.listsExactly (h : body.IsRevised f)
    (hdistinct : (body.visits.map Visit.position).Nodup) : body.ListsExactly where
  distinct := hdistinct
  reached := by
    intro visit hvisit
    obtain ⟨entries, hat, hentry⟩ := h.hasField_iff.1 (mem_visits_iff.1 hvisit)
    have hfollow := hat.follow_eq h.wellKeyed_toTree
    have hkeys := hat.wellKeyed h.wellKeyed_toTree
    exact ⟨entries, hfollow, (Tree.distinctKeys_of_wellKeyed hkeys).get?_eq_some_iff.2 hentry⟩
  complete := by
    intro place entries hat field text hentry
    exact mem_visits_iff.2 (h.hasField_iff.2 ⟨entries, hat, hentry⟩)

/-- A revision lists a body at the same positions. -/
theorem positions_mapPatterns (f : PatternField → String → String) (body : GrammarBody) :
    (body.mapPatterns f).visits.map Visit.position = body.visits.map Visit.position := by
  rw [visits_mapPatterns, List.map_map]
  rfl

theorem mapPatterns_id (body : GrammarBody) : body.mapPatterns (fun _ text => text) = body :=
  mapPatterns_eq_self fun _ _ => rfl

theorem listsExactly_mapPatterns {tree : Tree} {document : Document}
    (hkeys : tree.wellKeyed = true) (h : Document.ofTree tree = .ok document) :
    (document.body.mapPatterns f).ListsExactly := by
  refine (isRevised_of_ofTree hkeys h).listsExactly ?_
  rw [positions_mapPatterns, ← visits_toRule]
  exact (Document.keyedThroughout_body h).nodup_positions .root

end GrammarBody

/-- The body of a document is listed exactly, before it is resolved and after, whatever the
variables are. -/
theorem Document.listsExactly_body [MatcherEngine] {tree : Tree} {document : Document}
    (hkeys : tree.wellKeyed = true) (h : ofTree tree = .ok document) :
    document.body.ListsExactly ∧ ∀ (loader : GrammarLoader) (grammar : Grammar),
      loader.resolve document = .ok grammar → grammar.body.ListsExactly := by
  constructor
  · rw [← GrammarBody.mapPatterns_id document.body]
    exact GrammarBody.listsExactly_mapPatterns hkeys h
  · intro loader grammar hresolve
    obtain ⟨resolver, -, rfl⟩ := GrammarLoader.resolve_eq_ok_iff.1 hresolve
    exact GrammarBody.listsExactly_mapPatterns hkeys h

namespace Document

attribute [local instance] MatcherEngine.unlimited

/-- A region that has no use for one of its patterns and has rules for one of its groups, a single
pattern with groups that are not named, and texts where rules are expected. -/
def blocksTree : Tree := .mapping [
  (.string "repository", .mapping [
    (.string "words", .mapping [(.string "match", .string "{{word}}"),
      (.string "captures", .mapping [(.null, .mapping [(.string "match", .string "no")])])]),
    (.string "0", .string "no rule")]),
  (.string "variables", .mapping [(.string "word", .string "[a-z]+")]),
  (.string "patterns", .sequence [.string "no rule", .mapping [
    (.string "match", .string "left over"),
    (.string "end", .string "done"),
    (.string "beginCaptures", .mapping [(.number (.int 1), .mapping [
      (.string "patterns", .sequence [.mapping [(.string "while", .string "{{word}}")]])])]),
    (.string "begin", .string "do")]])]

def blocksDocument : Document where
  body :=
    { attributes := []
      patterns := some [.ofVerbatim (.string "no rule"),
        { kind := .region "do" (some "done") none
          extra := [(.matchPattern, "left over")]
          patterns := none
          repository := none
          captures := [(.beginCaptures, [("1", ⟨.container, [],
            some [⟨.container, [(.whilePattern, "{{word}}")], none, none, [], []⟩], none, [], []⟩)])]
          attributes := [] }]
      repository := some [
        ("words", ⟨.single "{{word}}", [], none, none, [], [(.string "captures",
          .mapping [(.null, .mapping [(.string "match", .string "no")])])]⟩),
        ("0", .ofVerbatim (.string "no rule"))] }
  variableTable := .ofList [("word", "[a-z]+")]

example : blocksDocument.body.visits.map Visit.position = [
    (["patterns", "1"], .beginPattern), (["patterns", "1"], .endPattern),
    (["patterns", "1"], .matchPattern),
    (["patterns", "1", "beginCaptures", "1", "patterns", "0"], .whilePattern),
    (["repository", "words"], .matchPattern)] := by decide +kernel

theorem listsExactly_blocks : blocksTree.wellKeyed = true ∧ ofTree blocksTree = .ok blocksDocument ∧
    blocksDocument.body.ListsExactly ∧ ∀ (loader : GrammarLoader) (grammar : Grammar),
      loader.resolve blocksDocument = .ok grammar → grammar.body.ListsExactly :=
  have hkeys : blocksTree.wellKeyed = true := by decide
  have hread : ofTree blocksTree = .ok blocksDocument := rfl
  ⟨hkeys, hread, listsExactly_body hkeys hread⟩

end Document

end HighlightGrammar

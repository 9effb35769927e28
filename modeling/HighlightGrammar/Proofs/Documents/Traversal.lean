import HighlightGrammar.Proofs.Documents.Idempotence
import HighlightGrammar.Proofs.Rules.Traversal

/-!
# The two walks over a body

A body is walked like the rule that holds what it holds, by a revising walk and a listing walk of
its own. Both go to the same texts. -/
namespace HighlightGrammar.GrammarBody

variable {f : PatternField → String → String}

/-- A body with its pattern texts left blank. -/
def outline (body : GrammarBody) : GrammarBody where
  attributes := body.attributes
  patterns := Rule.outlineOptionalItems body.patterns
  repository := Rule.outlineOptionalMap body.repository

theorem toRule_outline (body : GrammarBody) : body.outline.toRule = body.toRule.outline := rfl

theorem visits_mapPatterns (body : GrammarBody) :
    (body.mapPatterns f).visits = body.visits.map (Visit.revise f) := by
  rw [← visits_toRule, ← visits_toRule, toRule_mapPatterns]
  exact Rule.visits_mapPatterns body.toRule .root

/-- A revision that changes no visited text changes nothing. -/
theorem mapPatterns_eq_self {body : GrammarBody}
    (h : ∀ visit ∈ body.visits, f visit.field visit.text = visit.text) :
    body.mapPatterns f = body := by
  apply toRule_injective
  have hcongr : body.toRule.mapPatterns f = body.toRule.mapPatterns fun _ text => text :=
    Rule.mapPatterns_congr body.toRule .root h
  rw [toRule_mapPatterns, hcongr, Rule.mapPatterns_id]

theorem outline_mapPatterns (body : GrammarBody) : (body.mapPatterns f).outline = body.outline := by
  apply toRule_injective
  rw [toRule_outline, toRule_outline, toRule_mapPatterns]
  exact Rule.outline_mapPatterns body.toRule

theorem notes_mapPatternsM (body : GrammarBody) :
    Notes (body.mapPatternsM (noting f)) (body.mapPatterns f)
      (body.visits.map Visit.argument) := by
  have hpatterns : Notes (Rule.mapOptionalItemsM (noting f) body.patterns) _ _ :=
    Rule.notes_mapOptionalItemsM (fun _ _ rule _ => Rule.notes_mapPatternsM rule) .root
  have hrepository : Notes (Rule.mapOptionalNamedM (noting f) body.repository) _ _ :=
    Rule.notes_mapOptionalNamedM (fun _ _ e _ => Rule.notes_mapPatternsM e.2) .root
  have hresult : body.mapPatterns f =
      { body with
        patterns := body.patterns.map (List.map (Rule.mapPatterns f))
        repository := body.repository.map (RuleMap.mapPatterns f) } := by
    rw [← Rule.run_mapOptionalItemsM, ← Rule.run_mapOptionalNamedM]
    rfl
  rw [hresult, visits, List.map_append]
  exact hpatterns.bind (hrepository.map _)

/-- In a body and in a rule the revising walk asks once for each text that the listing walk finds,
the listing afterwards finds the answers at the same places, and nothing else has changed. -/
theorem walks_agree (f : PatternField → String → String) :
    (∀ body : GrammarBody,
      (body.mapPatterns f).visits = body.visits.map (Visit.revise f) ∧
      Notes (body.mapPatternsM (noting f)) (body.mapPatterns f)
        (body.visits.map Visit.argument) ∧
      (body.mapPatterns f).outline = body.outline) ∧
    ∀ (rule : Rule) (path : RulePath),
      (rule.mapPatterns f).visits path = (rule.visits path).map (Visit.revise f) ∧
      Notes (rule.mapPatternsM (noting f)) (rule.mapPatterns f)
        ((rule.visits path).map Visit.argument) ∧
      (rule.mapPatterns f).outline = rule.outline := by
  constructor
  · intro body
    exact ⟨visits_mapPatterns body, notes_mapPatternsM body, outline_mapPatterns body⟩
  · intro rule path
    have hvisits := Rule.visits_mapPatterns (f := f) rule path
    have hnotes := Rule.notes_mapPatternsM (f := f) rule path
    exact ⟨hvisits, hnotes, Rule.outline_mapPatterns rule⟩

end HighlightGrammar.GrammarBody

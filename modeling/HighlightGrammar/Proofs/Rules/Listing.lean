import HighlightGrammar.Proofs.Rules.Places

/-!
# The listing visits no field twice

The listing of a rule is that of its own texts followed by those of the rules that stand directly in
it. In a keyed rule two of these stand in different sections or under different names, so what is
visited in them is told apart by the path, and at one path a field comes once. -/
namespace HighlightGrammar

/-- Where a visited text stands: the place of its rule, and its field. -/
def Visit.position (visit : Visit) : List String × PatternField :=
  (visit.path.segments, visit.field)

namespace Rule

section

variable {rule : Rule}

theorem segments_of_mem_visits {path : RulePath} {visit : Visit} (h : visit ∈ rule.visits path) :
    ∃ place, visit.path.segments = path.segments ++ place := by
  obtain ⟨place, -, -, hsegments, -⟩ := mem_visits_iff.1 h
  exact ⟨place, hsegments⟩

/-- No field of a keyed rule is visited twice, at whatever depth. -/
theorem KeyedThroughout.nodup_positions (h : rule.KeyedThroughout) (path : RulePath) :
    ((rule.visits path).map Visit.position).Nodup := by
  induction rule using inductionOnNested generalizing path with
  | step rule ih =>
    have hkeyed : rule.Keyed := h _ _ (.here rule)
    have hown : ((visitTexts path rule.texts).map Visit.position).Nodup := by
      rw [visitTexts, List.map_map]
      exact nodup_map_pair path.segments hkeyed.texts
    rw [visits_eq_flatMap, List.map_append, List.map_flatMap, List.nodup_append',
      List.nodup_flatMap]
    refine ⟨hown, ⟨fun c hc => ?_, ?_⟩, ?_⟩
    · have hnested := mem_children_iff.1 hc
      exact ih _ _ _ hnested (fun place inner hat => h _ inner (.inside hnested hat)) _
    · -- What is visited in two rules differs in the section or in the name behind the path.
      refine (List.pairwise_map.1 hkeyed.nodup_children).imp fun {c d} hne => ?_
      refine List.disjoint_left.2 ?_
      intro position hc hd
      obtain ⟨visit, hvisit, rfl⟩ := List.mem_map.1 hc
      obtain ⟨other, hother, heq⟩ := List.mem_map.1 hd
      obtain ⟨place, hplace⟩ := segments_of_mem_visits hvisit
      obtain ⟨place', hplace'⟩ := segments_of_mem_visits hother
      have hsegments : other.path.segments = visit.path.segments := (Prod.mk.inj heq).1
      rw [hplace, hplace'] at hsegments
      simp only [RulePath.segments_child, List.append_assoc, List.append_cancel_left_eq,
        List.cons_append, List.nil_append, List.cons.injEq] at hsegments
      exact hne (Prod.ext hsegments.1.symm hsegments.2.1.symm)
    · rw [List.disjoint_left]
      intro position hown hchild
      obtain ⟨visit, hvisit, rfl⟩ := List.mem_map.1 hown
      obtain ⟨c, -, hother⟩ := List.mem_flatMap.1 hchild
      obtain ⟨other, hother, heq⟩ := List.mem_map.1 hother
      obtain ⟨place, hplace⟩ := segments_of_mem_visits hother
      have hsegments : other.path.segments = visit.path.segments := (Prod.mk.inj heq).1
      rw [hplace, (mem_visitTexts_iff.1 hvisit).1] at hsegments
      simp at hsegments

end

end Rule

end HighlightGrammar

import HighlightGrammar.Proofs.Variables.RecordedTexts
import HighlightGrammar.Proofs.Variables.Sites

/-!
# Seams

Two templates that are put together are expanded like each of them alone, whatever the variables:
their names may differ in letter case only, and their texts may refer to each other in circles. This
holds after every pass that a resolver makes, so no pass forms a placeholder across a seam and none
breaks one. -/
namespace HighlightGrammar

open Placeholder

namespace VariableResolver

variable {vs : List Variable} {passes : List Replacer} {s t : String}

/-- The first records of a table are those of its first variables. -/
theorem exists_ofVariables_of_prefix (h : passes <+: (ofVariables vs).replacers) :
    ∃ earlier, earlier <+: vs ∧ ofVariables earlier = ⟨passes⟩ := by
  refine ⟨vs.take passes.length, List.take_prefix _ _, ?_⟩
  have hearlier := replacers_prefix (vs.take passes.length) (vs.drop passes.length)
  rw [List.take_append_drop] at hearlier
  -- The records of as many variables as there are passes begin the list as the passes do.
  have hlength : (ofVariables (vs.take passes.length)).replacers.length = passes.length := by
    have hle := h.length_le
    rw [length_replacers] at hle ⊢
    rw [List.length_take]
    omega
  have hsame : (ofVariables (vs.take passes.length)).replacers = passes :=
    (List.prefix_of_prefix_length_le hearlier h hlength.le).eq_of_length hlength
  exact congrArg VariableResolver.mk hsame

/-- Two texts that are put together are expanded each for itself, to a template that holds the
placeholders of the first one and then those of the second one. -/
structure ExpandsPiecewise (resolver : VariableResolver) (s t : String) : Prop where
  append : resolver.expand (s ++ t) = resolver.expand s ++ resolver.expand t
  template : IsTemplate (resolver.expand (s ++ t)).toList
  placeholders : names (resolver.expand (s ++ t)) =
    names (resolver.expand s) ++ names (resolver.expand t)

theorem expandsPiecewise (hvs : Templated vs) (hs : IsTemplate s.toList)
    (ht : IsTemplate t.toList) : ExpandsPiecewise (ofVariables vs) s t := by
  have happend : (ofVariables vs).expand (s ++ t) =
      (ofVariables vs).expand s ++ (ofVariables vs).expand t := by
    apply String.toList_inj.1
    simp [expandChars_append hvs hs]
  have hs' : IsTemplate ((ofVariables vs).expand s).toList := by
    simpa using isTemplate_expandChars hvs hs
  have ht' : IsTemplate ((ofVariables vs).expand t).toList := by
    simpa using isTemplate_expandChars hvs ht
  constructor
  · exact happend
  · rw [happend, String.toList_append]
    exact hs'.append ht'
  · rw [happend, names, String.toList_append, namesFrom_append hs', List.map_append]
    rfl

/-- Expanding works piece by piece, after every pass and so in the end. -/
theorem expand_append [MatcherEngine] (table : VariableTable) (h : Templated table.entries) :
    (∀ error, ofTable table = .error error → error.name ∈ table.names ∧
      MatcherEngine.compile error.name = .error error.reason) ∧
    ∀ resolver, ofTable table = .ok resolver →
      ∀ s t : String, IsTemplate s.toList → IsTemplate t.toList →
        ExpandsPiecewise resolver s t ∧
          ∀ passes, passes <+: resolver.replacers → ExpandsPiecewise ⟨passes⟩ s t := by
  refine ⟨fun error herror => refused_of_ofTable herror, ?_⟩
  intro resolver hresolver s t hs ht
  obtain rfl := eq_ofVariables_of_ofTable hresolver
  refine ⟨expandsPiecewise h hs ht, fun passes hpasses => ?_⟩
  obtain ⟨earlier, hearlier, hrecorded⟩ := exists_ofVariables_of_prefix hpasses
  rw [← hrecorded]
  exact expandsPiecewise (h.of_subset hearlier.subset) hs ht

attribute [local instance] MatcherEngine.unlimited

/-- Two spellings of one name that refer to each other, and a text with single braces. -/
def shadowed : VariableTable := .ofList [("a", "{{A}}x{{b}}"), ("A", "{{a}}"), ("B", "{y}{{c}}")]

theorem expand_append_shadowed :
    Templated shadowed.entries ∧ IsTemplate "\x7bp{{a}}".toList ∧
      IsTemplate "\x7d\x7d{{B}}".toList ∧ ∃ resolver, ofTable shadowed = .ok resolver ∧
        resolver.expand "\x7bp{{a}}\x7d\x7d{{B}}" =
          "\x7bp{{A}}x{y}{{c}}x{y}{{c}}" ++ "\x7d\x7d{y}{{c}}" := by
  have hvs : Templated shadowed.entries := by decide +kernel
  have hs : IsTemplate "\x7bp{{a}}".toList := by decide +kernel
  have ht : IsTemplate "\x7d\x7d{{B}}".toList := by decide +kernel
  have hok : ofTable shadowed = .ok (ofVariables shadowed.entries) := ofTable_unlimited _
  have hleft : (ofVariables shadowed.entries).expand "\x7bp{{a}}" =
      "\x7bp{{A}}x{y}{{c}}x{y}{{c}}" := by decide +kernel
  have hright : (ofVariables shadowed.entries).expand "\x7d\x7d{{B}}" = "\x7d\x7d{y}{{c}}" := by
    decide +kernel
  have happend := ((expand_append shadowed hvs).2 _ hok _ _ hs ht).1.append
  rw [hleft, hright] at happend
  exact ⟨hvs, hs, ht, _, hok, happend⟩

end VariableResolver

end HighlightGrammar

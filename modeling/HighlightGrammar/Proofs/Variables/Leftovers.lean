import HighlightGrammar.Proofs.Variables.Sites
import HighlightGrammar.Proofs.Variables.Survival

/-!
# What an expanded template still holds

A name stays wherever it is reached if no variable has it, or if the variable that has it closes a
cycle. An expanded template holds a placeholder exactly if the template reaches such a name. -/
namespace HighlightGrammar

open Placeholder

/-- A name that stays wherever it is reached: no variable has it, or the variable that has it is the
last declared member of a cycle. -/
def Lasting (vs : List Variable) (name : List Char) : Prop :=
  (∀ v ∈ vs, ¬ SameName v.1.toList name) ∨ ∃ v ∈ vs, SameName v.1.toList name ∧ ClosesCycle vs v

/-- An expanded template holds a placeholder exactly if the template reaches a name that stays. -/
theorem VariableResolver.exists_occurs_expandChars_iff {vs : List Variable} (hvs : Templated vs)
    (hdiffer : Distinguished vs) {text : List Char} (htext : IsTemplate text) :
    (∃ name, Occurs name ((ofVariables vs).expandChars text)) ↔
      ∃ name, Reaches vs text name ∧ Lasting vs name := by
  constructor
  · rintro ⟨name, hname⟩
    by_cases hdeclared : ∃ v ∈ vs, SameName v.1.toList name
    · obtain ⟨v, hv, hsame⟩ := hdeclared
      have hmentions : Mentions ((ofVariables vs).expandChars text) v := ⟨name, hname, hsame⟩
      obtain ⟨⟨reached, hreached, hspelled⟩, hcycle⟩ :=
        (mentions_expandChars_iff_closesCycle hvs hdiffer htext hv).1 hmentions
      exact ⟨reached, hreached, Or.inr ⟨v, hv, hspelled, hcycle⟩⟩
    · have hunknown : ∀ v ∈ vs, ¬ SameName v.1.toList name := by simpa using hdeclared
      exact ⟨name, (occurs_expandChars_iff hvs hdiffer htext hunknown).1 hname, Or.inl hunknown⟩
  · rintro ⟨name, hreached, hunknown | ⟨v, hv, hsame, hcycle⟩⟩
    · exact ⟨name, (occurs_expandChars_iff hvs hdiffer htext hunknown).2 hreached⟩
    · have hmentions := (mentions_expandChars_iff_closesCycle hvs hdiffer htext hv).2
        ⟨⟨name, hreached, hsame⟩, hcycle⟩
      obtain ⟨left, hleft, -⟩ := hmentions
      exact ⟨left, hleft⟩

end HighlightGrammar

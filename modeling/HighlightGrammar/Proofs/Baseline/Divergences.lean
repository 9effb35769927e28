import HighlightGrammar.Proofs.Baseline.Reports

/-!
# Lines in which traces diverge

The comparison of two traces goes through their lines side by side. It lists each line whose tokens
differ or in which the second grammar has named a foreign scope, in the order of the lines. -/
namespace HighlightGrammar

namespace TracedLine

variable {kind : Kind} {ours theirs : TracedLine}

/-- A line diverges: its tokens differ, or the second grammar has named a foreign scope. -/
def Diverges (kind : Kind) (ours theirs : TracedLine) : Prop :=
  ours.tokens ≠ theirs.tokens ∨
    ∃ token ∈ theirs.tokens, ∃ scope ∈ token.scopes, kind.ownsScope scope = false

theorem foreignScopes_ne_nil_iff : theirs.foreignScopes kind ≠ [] ↔
    ∃ token ∈ theirs.tokens, ∃ scope ∈ token.scopes, kind.ownsScope scope = false := by
  constructor
  · intro hne
    obtain ⟨scope, hscope⟩ := List.exists_mem_of_ne_nil _ hne
    obtain ⟨hmem, hforeign⟩ := List.mem_filter.1 hscope
    obtain ⟨token, htoken, hin⟩ := List.mem_flatMap.1 hmem
    exact ⟨token, htoken, scope, hin, by simpa using hforeign⟩
  · rintro ⟨token, htoken, scope, hin, hforeign⟩
    have hscope : scope ∈ theirs.foreignScopes kind :=
      List.mem_filter.2 ⟨List.mem_flatMap.2 ⟨token, htoken, hin⟩, by simp [hforeign]⟩
    exact List.ne_nil_of_mem hscope

/-- What is told of a line that diverges. -/
def divergence (kind : Kind) (index : Nat) (ours theirs : TracedLine) : LineDivergence :=
  ⟨index, ours.tokens != theirs.tokens, theirs.foreignScopes kind⟩

end TracedLine

open TracedLine

section Divergences

variable {kind : Kind} {start : Nat} {ours theirs : TracedLine}
  {primary secondary : List TracedLine}

theorem divergences_cons_of_diverges (h : Diverges kind ours theirs) :
    divergences kind start (ours :: primary) (theirs :: secondary) =
      divergence kind start ours theirs :: divergences kind (start + 1) primary secondary := by
  rw [divergences]
  refine if_pos ?_
  rw [Bool.or_eq_true, bne_iff_ne, Bool.not_eq_true', List.isEmpty_eq_false_iff]
  exact h.imp_right foreignScopes_ne_nil_iff.2

theorem divergences_cons_of_agrees (h : ¬ Diverges kind ours theirs) :
    divergences kind start (ours :: primary) (theirs :: secondary) =
      divergences kind (start + 1) primary secondary := by
  rw [divergences]
  refine if_neg ?_
  rw [Bool.or_eq_true, bne_iff_ne, Bool.not_eq_true', List.isEmpty_eq_false_iff]
  exact fun hor => h (hor.imp_right foreignScopes_ne_nil_iff.1)

theorem mem_divergences_cons {d : LineDivergence} :
    d ∈ divergences kind start (ours :: primary) (theirs :: secondary) ↔
      (Diverges kind ours theirs ∧ d = divergence kind start ours theirs) ∨
        d ∈ divergences kind (start + 1) primary secondary := by
  by_cases h : Diverges kind ours theirs
  · rw [divergences_cons_of_diverges h, List.mem_cons]
    exact or_congr_left ⟨fun heq => ⟨h, heq⟩, And.right⟩
  · rw [divergences_cons_of_agrees h]
    exact ⟨Or.inr, fun hor => hor.resolve_left fun hhead => h hhead.1⟩

/-- The lines that are told of are those that diverge, and all that is told is about them. -/
theorem mem_divergences_iff {d : LineDivergence} : d ∈ divergences kind start primary secondary ↔
    ∃ index ours theirs, primary[index]? = some ours ∧ secondary[index]? = some theirs ∧
      Diverges kind ours theirs ∧ d = divergence kind (start + index) ours theirs := by
  induction primary generalizing start secondary with
  | nil => simp [divergences]
  | cons ours primary ih =>
    cases secondary with
    | nil => simp [divergences]
    | cons theirs secondary =>
      rw [mem_divergences_cons, ih]
      constructor
      · rintro (⟨hhead, rfl⟩ | ⟨index, mine, other, hmine, hother, hdiverges, rfl⟩)
        · exact ⟨0, ours, theirs, rfl, rfl, hhead, rfl⟩
        · refine ⟨index + 1, mine, other, hmine, hother, hdiverges, ?_⟩
          rw [Nat.add_right_comm, Nat.add_assoc]
      · rintro ⟨index, mine, other, hmine, hother, hdiverges, rfl⟩
        cases index with
        | zero =>
          obtain rfl := Option.some.inj hmine
          obtain rfl := Option.some.inj hother
          exact Or.inl ⟨hdiverges, rfl⟩
        | succ index =>
          refine Or.inr ⟨index, mine, other, hmine, hother, hdiverges, ?_⟩
          rw [Nat.add_right_comm, Nat.add_assoc]

theorem diverges_of_mem_divergences {d : LineDivergence}
    (h : d ∈ divergences kind 0 primary secondary) (hours : primary[d.line]? = some ours)
    (htheirs : secondary[d.line]? = some theirs) :
    Diverges kind ours theirs ∧ d = divergence kind d.line ours theirs := by
  obtain ⟨index, mine, other, hmine, hother, hdiverges, rfl⟩ := mem_divergences_iff.1 h
  rw [Nat.zero_add] at hours htheirs ⊢
  obtain rfl := Option.some.inj (hmine.symm.trans hours)
  obtain rfl := Option.some.inj (hother.symm.trans htheirs)
  exact ⟨hdiverges, rfl⟩

theorem pairwise_divergences :
    (divergences kind start primary secondary).Pairwise fun d e => d.line < e.line := by
  induction primary generalizing start secondary with
  | nil => exact .nil
  | cons ours primary ih =>
    cases secondary with
    | nil => exact .nil
    | cons theirs secondary =>
      by_cases h : Diverges kind ours theirs
      · rw [divergences_cons_of_diverges h, List.pairwise_cons]
        refine ⟨fun later hlater => ?_, ih⟩
        obtain ⟨index, _, _, _, _, _, rfl⟩ := mem_divergences_iff.1 hlater
        exact Nat.lt_of_lt_of_le (Nat.lt_succ_self start) (Nat.le_add_right _ index)
      · rw [divergences_cons_of_agrees h]
        exact ih

end Divergences

theorem Trace.lines_compare {primary secondary : Trace} : (primary.compare secondary).lines =
    divergences secondary.kind 0 primary.lines secondary.lines := by
  rw [compare]
  split
  · next hnone => exact (List.isEmpty_iff.1 hnone).symm
  · rfl

end HighlightGrammar

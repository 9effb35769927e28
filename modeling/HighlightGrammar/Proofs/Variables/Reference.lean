import HighlightGrammar.Grammar.VariableTable
import HighlightGrammar.Proofs.Variables.Template
import Mathlib.Data.List.Chain

/-!
# References between variables

A text refers to the variables of its placeholders, and through their texts to further ones. What a
text reaches through the first variables of a table grows by one elimination step with each further
variable: a path through the new variable is a path to it followed by a path from it. -/
namespace HighlightGrammar

open Placeholder

/-- A name with the text declared for it. -/
abbrev Variable := String × String

/-- The names whose placeholders a text reaches: those in the text, and those in the declared text
of a variable that it reaches. -/
inductive Reaches (vs : List Variable) (text : List Char) : List Char → Prop where
  | direct {name} (occurs : Occurs name text) : Reaches vs text name
  | follow {name next v} (reached : Reaches vs text name) (declared : v ∈ vs)
      (same : SameName v.1.toList name) (occurs : Occurs next v.2.toList) :
      Reaches vs text next

/-- A text reaches a variable, in whatever letter case. -/
def ReachesVariable (vs : List Variable) (text : List Char) (v : Variable) : Prop :=
  ∃ name, Reaches vs text name ∧ SameName v.1.toList name

/-- A text has a placeholder of a variable, in whatever letter case. -/
def Mentions (text : List Char) (v : Variable) : Prop :=
  ∃ name, Occurs name text ∧ SameName v.1.toList name

/-- The declared text of `v` has a placeholder of `w`. -/
def Refers (v w : Variable) : Prop := Mentions v.2.toList w

/-- Declared variables that each refer to the next one, the last one to the first. -/
structure IsCycle (vs cycle : List Variable) : Prop where
  nonempty : cycle ≠ []
  declared : ∀ v ∈ cycle, v ∈ vs
  closed : List.IsChain Refers (cycle ++ cycle.head?.toList)

/-- No variable reaches itself. -/
def Acyclic (vs : List Variable) : Prop := ∀ cycle, ¬ IsCycle vs cycle

/-- Of all members of some cycle the variable is the one declared last. -/
def ClosesCycle (vs : List Variable) (v : Variable) : Prop :=
  ∃ earlier later cycle, vs = earlier ++ v :: later ∧ IsCycle vs cycle ∧
    v ∈ cycle ∧ ∀ w ∈ cycle, w ∉ later

namespace Reaches

variable {vs : List Variable} {text name next : List Char}

theorem mono {more : List Variable} (h : Reaches vs text name) (hsub : vs ⊆ more) :
    Reaches more text name := by
  induction h with
  | direct occurs => exact .direct occurs
  | follow _ declared same occurs ih => exact .follow ih (hsub declared) same occurs

theorem through {v : Variable} (h : Reaches vs text name) (declared : v ∈ vs)
    (same : SameName v.1.toList name) (hv : Reaches vs v.2.toList next) :
    Reaches vs text next := by
  induction hv with
  | direct occurs => exact .follow h declared same occurs
  | follow _ declared' same' occurs ih => exact .follow ih declared' same' occurs

end Reaches

theorem reaches_nil_iff {text name : List Char} : Reaches [] text name ↔ Occurs name text := by
  constructor
  · intro h
    cases h with
    | direct occurs => exact occurs
    | follow _ declared => cases declared
  · exact .direct

/-- One more variable adds the paths that go to it and on from it. -/
theorem reaches_append_singleton_iff {vs : List Variable} {v : Variable}
    {text name : List Char} : Reaches (vs ++ [v]) text name ↔
      Reaches vs text name ∨
        (ReachesVariable vs text v ∧ Reaches vs v.2.toList name) := by
  constructor
  · intro h
    induction h with
    | direct occurs => exact Or.inl (.direct occurs)
    | @follow name next w _ declared same occurs ih =>
      rcases List.mem_append.1 declared with hw | hw
      · rcases ih with hname | ⟨hv, hname⟩
        · exact Or.inl (.follow hname hw same occurs)
        · exact Or.inr ⟨hv, .follow hname hw same occurs⟩
      · obtain rfl := List.mem_singleton.1 hw
        rcases ih with hname | ⟨hv, -⟩
        · exact Or.inr ⟨⟨name, hname, same⟩, .direct occurs⟩
        · exact Or.inr ⟨hv, .direct occurs⟩
  · have hsub : vs ⊆ vs ++ [v] := List.subset_append_left _ _
    rintro (h | ⟨⟨own, hown, same⟩, h⟩)
    · exact h.mono hsub
    · exact (hown.mono hsub).through (by simp) same (h.mono hsub)

/-- The first visit to the last variable needs no variable but the earlier ones. -/
theorem reachesVariable_append_self_iff {vs : List Variable} {v : Variable}
    {text : List Char} : ReachesVariable (vs ++ [v]) text v ↔
      ReachesVariable vs text v := by
  constructor
  · rintro ⟨name, h, same⟩
    rcases reaches_append_singleton_iff.1 h with h | ⟨h, -⟩
    · exact ⟨name, h, same⟩
    · exact h
  · rintro ⟨name, h, same⟩
    exact ⟨name, h.mono (List.subset_append_left _ _), same⟩

theorem reachesVariable_append_singleton_iff {vs : List Variable} {v w : Variable}
    {text : List Char} : ReachesVariable (vs ++ [v]) text w ↔
      ReachesVariable vs text w ∨
        (ReachesVariable vs text v ∧ ReachesVariable vs v.2.toList w) := by
  simp only [ReachesVariable.eq_1 _ _ w, reaches_append_singleton_iff, or_and_right, exists_or,
    and_assoc, exists_and_left]

theorem Acyclic.perm {vs ws : List Variable} (h : Acyclic vs) (hperm : vs.Perm ws) : Acyclic ws :=
  fun cycle hcycle => h cycle
    ⟨hcycle.nonempty, fun v hv => hperm.mem_iff.2 (hcycle.declared v hv), hcycle.closed⟩

/-- Variables are free of cycles when each one ranks above those that it refers to. -/
theorem acyclic_of_rank {vs : List Variable} (rank : Variable → Nat)
    (h : ∀ v ∈ vs, ∀ w ∈ vs, Refers v w → rank w < rank v) : Acyclic vs := by
  rintro cycle ⟨hnonempty, hdeclared, hclosed⟩
  cases cycle with
  | nil => exact hnonempty rfl
  | cons v cycle =>
    have hmem : ∀ w ∈ v :: cycle ++ [v], w ∈ vs := by
      intro w hw
      rcases List.mem_append.1 hw with hw | hw
      · exact hdeclared w hw
      · exact hdeclared w (by simp_all)
    have hdown : List.IsChain (fun v w => rank w < rank v) (v :: cycle ++ [v]) :=
      List.IsChain.imp_of_mem_imp (fun u w hu hw href => h u (hmem u hu) w (hmem w hw) href) hclosed
    have hpairs := List.isChain_iff_pairwise.1 hdown
    exact absurd ((List.pairwise_cons.1 hpairs).1 v (by simp)) (Nat.lt_irrefl _)

/-- A way along references is a chain of variables. -/
private theorem chain_of_reaches {vs : List Variable} {u : Variable} {name : List Char}
    (h : Reaches vs u.2.toList name) :
    ∃ way, (∀ v ∈ way, v ∈ vs) ∧
      ∀ w : Variable, SameName w.1.toList name → List.IsChain Refers (u :: way ++ [w]) := by
  induction h with
  | @direct name occurs =>
    refine ⟨[], by simp, fun w same => ?_⟩
    have href : Refers u w := ⟨name, occurs, same⟩
    simpa using href
  | @follow name next v _ declared same occurs ih =>
    obtain ⟨way, hway, hchain⟩ := ih
    refine ⟨way ++ [v], ?_, fun w hw => ?_⟩
    · intro x hx
      rcases List.mem_append.1 hx with hx | hx
      · exact hway x hx
      · exact List.mem_singleton.1 hx ▸ declared
    · have href : Refers v w := ⟨next, occurs, hw⟩
      have hsplit : u :: (way ++ [v]) ++ [w] = (u :: way) ++ v :: [w] := by simp
      rw [hsplit, List.isChain_split]
      exact ⟨hchain v same, by simpa using href⟩

/-- Along a chain of variables the first text reaches the last variable. -/
private theorem reachesVariable_of_chain {vs : List Variable} {u v : Variable}
    {way : List Variable} (hway : ∀ w ∈ way, w ∈ vs)
    (h : List.IsChain Refers (u :: way ++ [v])) : ReachesVariable vs u.2.toList v := by
  induction way generalizing u with
  | nil =>
    obtain ⟨name, occurs, same⟩ : Refers u v := by simpa using h
    exact ⟨name, .direct occurs, same⟩
  | cons w way ih =>
    obtain ⟨⟨name, occurs, same⟩, hrest⟩ := List.isChain_cons_cons.1 h
    obtain ⟨last, hlast, hsame⟩ := ih (fun x hx => hway x (by simp [hx])) hrest
    exact ⟨last, Reaches.through (.direct occurs) (hway w (by simp)) same hlast, hsame⟩

/-- A cycle can be walked from each of its members. -/
private theorem IsCycle.chain_from {vs cycle : List Variable} {v : Variable}
    (h : IsCycle vs cycle) (hv : v ∈ cycle) :
    ∃ way, (∀ w ∈ way, w ∈ cycle) ∧ List.IsChain Refers (v :: way ++ [v]) := by
  obtain ⟨front, back, rfl⟩ := List.append_of_mem hv
  have hclosed := h.closed
  cases front with
  | nil => exact ⟨back, by simp +contextual, by simpa using hclosed⟩
  | cons u front =>
    refine ⟨back ++ u :: front, ?_, ?_⟩
    · intro w hw
      simp only [List.mem_append, List.mem_cons] at hw ⊢
      tauto
    · have hloop : u :: front ++ v :: back ++ (u :: front ++ v :: back).head?.toList =
          (u :: front) ++ v :: (back ++ [u]) := by simp
      rw [hloop, List.isChain_split] at hclosed
      have hjoin : v :: (back ++ u :: front) ++ [v] = (v :: back) ++ u :: (front ++ [v]) := by simp
      rw [hjoin, List.isChain_split]
      exact ⟨hclosed.2, hclosed.1⟩

/-- A variable closes a cycle exactly when its text comes back to it through the variables declared
before it. -/
theorem closesCycle_iff {vs : List Variable} (hdistinct : vs.Nodup) {v : Variable} :
    ClosesCycle vs v ↔
      ∃ earlier later, vs = earlier ++ v :: later ∧ ReachesVariable earlier v.2.toList v := by
  constructor
  · rintro ⟨earlier, later, cycle, rfl, hcycle, hv, hlast⟩
    obtain ⟨way, hway, hchain⟩ := hcycle.chain_from hv
    refine ⟨earlier, later, rfl, reachesVariable_append_self_iff.1 ?_⟩
    refine reachesVariable_of_chain (fun w hw => ?_) hchain
    have hdeclared := hcycle.declared w (hway w hw)
    have hnot := hlast w (hway w hw)
    simp only [List.mem_append, List.mem_cons, List.not_mem_nil, or_false] at hdeclared ⊢
    tauto
  · rintro ⟨earlier, later, rfl, name, h, same⟩
    obtain ⟨way, hway, hchain⟩ := chain_of_reaches h
    have hmem : ∀ w ∈ v :: way, w = v ∨ w ∈ earlier := fun w hw =>
      (List.mem_cons.1 hw).imp_right (hway w)
    refine ⟨earlier, later, v :: way, rfl, ⟨by simp, ?_, by simpa using hchain v same⟩, by simp, ?_⟩
    · intro w hw
      rcases hmem w hw with rfl | hw
      · simp
      · simp [hw]
    · intro w hw hlater
      rw [List.nodup_append] at hdistinct
      rcases hmem w hw with rfl | hw
      · exact (List.nodup_cons.1 hdistinct.2.1).1 hlater
      · exact hdistinct.2.2 w hw w (by simp [hlater]) rfl

end HighlightGrammar

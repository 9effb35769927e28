import HighlightGrammar.Proofs.Fallible
import HighlightGrammar.Proofs.Variables.Reference
import HighlightGrammar.Proofs.Variables.Replacement
import Mathlib.Data.List.Induction

/-!
# Recording a table of variables

A table is recorded variable by variable, and recording fails only on a name that the engine
refuses. Expanding a text by a recorded table is expanding it by all variables but the last one and
then making the pass of the last one, whose own text was expanded in the same way. -/
namespace HighlightGrammar

open Placeholder

/-- The names are free of braces and the texts are templates. -/
def Templated (vs : List Variable) : Prop :=
  ∀ v ∈ vs, IsName v.1.toList ∧ IsTemplate v.2.toList

instance (vs : List Variable) : Decidable (Templated vs) :=
  inferInstanceAs (Decidable (∀ v ∈ vs, IsName v.1.toList ∧ IsTemplate v.2.toList))

/-- Two variables answer to no common name. -/
def Differ (v w : Variable) : Prop := ¬ SameName v.1.toList w.1.toList

instance : DecidableRel Differ := fun v w =>
  inferInstanceAs (Decidable (¬ SameName v.1.toList w.1.toList))

instance : Std.Symm Differ := ⟨fun _ _ hne hsame => hne hsame.symm⟩

/-- No two names agree up to letter case. -/
def Distinguished (vs : List Variable) : Prop := vs.Pairwise Differ

instance (vs : List Variable) : Decidable (Distinguished vs) :=
  inferInstanceAs (Decidable (vs.Pairwise Differ))

theorem Templated.of_subset {vs ws : List Variable} (h : Templated vs) (hsub : ws ⊆ vs) :
    Templated ws := fun v hv => h v (hsub hv)

theorem Templated.left {vs ws : List Variable} (h : Templated (vs ++ ws)) : Templated vs :=
  h.of_subset (List.subset_append_left _ _)

theorem Distinguished.sublist {vs ws : List Variable} (h : Distinguished vs)
    (hsub : ws.Sublist vs) : Distinguished ws := List.Pairwise.sublist hsub h

theorem Distinguished.nodup {vs : List Variable} (h : Distinguished vs) : vs.Nodup := by
  refine List.Pairwise.imp ?_ h
  rintro v w hne rfl
  exact hne rfl

theorem Distinguished.perm {vs ws : List Variable} (h : Distinguished vs) (hperm : vs.Perm ws) :
    Distinguished ws :=
  (hperm.pairwise_iff fun hne => Std.Symm.symm _ _ hne).1 h

/-- Only one variable of a table answers to a name. -/
theorem Distinguished.eq_of_sameName {vs : List Variable} (h : Distinguished vs) {v w : Variable}
    (hv : v ∈ vs) (hw : w ∈ vs) {name : List Char} (hvn : SameName v.1.toList name)
    (hwn : SameName w.1.toList name) : v = w := by
  by_contra hne
  exact List.Pairwise.forall h hv hw hne (hvn.trans hwn.symm)

/-- A variable is mentioned where its matcher finds it. -/
theorem mentions_iff {text : List Char} {v : Variable} :
    Mentions text v ↔ IsName v.1.toList ∧
      ∃ rest ∈ text.tails, startsWithPlaceholder v.1.toList rest = true := by
  constructor
  · rintro ⟨name, ⟨hname, before, after, rfl⟩, hsame⟩
    have hv : IsName v.1.toList := hsame.symm.isName hname
    refine ⟨hv, write name ++ after, ?_, ?_⟩
    · rw [List.mem_tails, List.append_assoc]
      exact List.suffix_append _ _
    · exact (startsWithPlaceholder_iff hv).2 ⟨name, after, rfl, hname, hsame⟩
  · rintro ⟨hv, rest, hrest, hstart⟩
    obtain ⟨name, after, rfl, hname, hsame⟩ := (startsWithPlaceholder_iff hv).1 hstart
    obtain ⟨before, rfl⟩ := (List.mem_tails _ _).1 hrest
    exact ⟨name, ⟨hname, before, after, (List.append_assoc ..).symm⟩, hsame⟩

instance (text : List Char) (v : Variable) : Decidable (Mentions text v) :=
  decidable_of_iff' _ mentions_iff

instance : DecidableRel Refers := fun v w => inferInstanceAs (Decidable (Mentions v.2.toList w))

namespace VariableResolver

/-- The resolver of a list of variables, whatever the engine says to their names. -/
def ofVariables (vs : List Variable) : VariableResolver :=
  vs.foldl (fun resolver v => resolver.record v.1 v.2) empty

/-- The replacer that is recorded for a variable behind others. -/
def replacerFor (vs : List Variable) (v : Variable) : Replacer :=
  ⟨v.1.toList, (ofVariables vs).expandChars v.2.toList⟩

/-- The last variable makes its pass over what the earlier ones leave. -/
theorem expandChars_append_singleton (vs : List Variable) (v : Variable) (text : List Char) :
    (ofVariables (vs ++ [v])).expandChars text =
      (replacerFor vs v).replace ((ofVariables vs).expandChars text) := by
  simp [ofVariables, record, expandChars, replacerFor]

@[simp] theorem toList_expand (resolver : VariableResolver) (text : String) :
    (resolver.expand text).toList = resolver.expandChars text.toList := by simp [expand]

section Engine

variable [MatcherEngine]

theorem checkName_eq_error_iff {name : String} {error : InvalidVariable} :
    checkName name = .error error ↔
      error.name = name ∧ MatcherEngine.compile name = .error error.reason := by
  rw [checkName, mapError_eq_error_iff]
  constructor
  · rintro ⟨reason, hrefused, rfl⟩
    exact ⟨rfl, hrefused⟩
  · rintro ⟨rfl, hrefused⟩
    exact ⟨error.reason, hrefused, rfl⟩

private theorem foldlM_record (vs : List Variable) (resolver : VariableResolver) :
    (vs.foldlM (fun resolver v => do
        checkName v.1
        return resolver.record v.1 v.2) resolver) = do
      vs.forM fun v => checkName v.1
      return vs.foldl (fun resolver v => resolver.record v.1 v.2) resolver := by
  induction vs generalizing resolver with
  | nil => rfl
  | cons v vs ih =>
    have hchecks : ((v :: vs).forM fun v => checkName v.1) =
        (checkName v.1 >>= fun _ => vs.forM fun v => checkName v.1) := rfl
    rw [List.foldlM_cons, hchecks, List.foldl_cons]
    simp only [bind_assoc, pure_bind, ih]

/-- The names of a table are checked, and its variables are recorded as they are. -/
theorem ofTable_eq (table : VariableTable) : ofTable table = do
    table.entries.forM fun v => checkName v.1
    return ofVariables table.entries := foldlM_record table.entries empty

theorem eq_ofVariables_of_ofTable {table : VariableTable} {resolver : VariableResolver}
    (h : ofTable table = .ok resolver) : resolver = ofVariables table.entries := by
  rw [ofTable_eq, bind_eq_ok_iff] at h
  obtain ⟨-, -, hresolver⟩ := h
  exact (Except.ok.inj hresolver).symm

/-- A table is recorded if the engine makes a matcher for each of its names. -/
theorem ofTable_eq_ok_iff {table : VariableTable} :
    ofTable table = .ok (ofVariables table.entries) ↔
      ∀ name ∈ table.names, MatcherEngine.compile name = .ok () := by
  have hchecked : (table.entries.forM fun v => checkName v.1) = .ok () ↔
      ∀ name ∈ table.names, MatcherEngine.compile name = .ok () := by
    simp only [forM_eq_ok_iff, checkName, mapError_eq_ok_iff, VariableTable.names,
      List.forall_mem_map]
  rw [ofTable_eq, bind_eq_ok_iff, ← hchecked]
  constructor
  · rintro ⟨⟨⟩, hnames, -⟩
    exact hnames
  · exact fun hnames => ⟨(), hnames, rfl⟩

/-- Recording fails with what the engine says to a name of the table. -/
theorem refused_of_ofTable {table : VariableTable} {error : InvalidVariable}
    (h : ofTable table = .error error) : error.name ∈ table.names ∧
      MatcherEngine.compile error.name = .error error.reason := by
  rw [ofTable_eq, bind_eq_error_iff] at h
  rcases h with hnames | ⟨-, -, hnever⟩
  · obtain ⟨before, v, after, hsplit, -, hrefused⟩ := forM_eq_error_iff.1 hnames
    obtain ⟨hname, hreason⟩ := checkName_eq_error_iff.1 hrefused
    rw [hname]
    refine ⟨List.mem_map_of_mem ?_, hreason⟩
    rw [hsplit]
    exact List.mem_append_right _ List.mem_cons_self
  · cases hnever

end Engine

theorem ofTable_unlimited (table : VariableTable) :
    @ofTable .unlimited table = .ok (ofVariables table.entries) :=
  @ofTable_eq_ok_iff .unlimited table |>.2 fun _ _ => rfl

variable {vs : List Variable} {text : List Char}

/-- Expanding a template by templates gives a template. -/
theorem isTemplate_expandChars (hvs : Templated vs) (htext : IsTemplate text) :
    IsTemplate ((ofVariables vs).expandChars text) := by
  induction vs using List.reverseRecOn generalizing text with
  | nil => exact htext
  | append_singleton vs v ih =>
    have hvs' : Templated vs := hvs.left
    have hv := hvs v (by simp)
    rw [expandChars_append_singleton]
    exact Replacer.isTemplate_replace hv.1 (ih hvs' hv.2) (ih hvs' htext)

/-- Expanding works piece by piece: no placeholder arises or is lost at a seam behind a template. -/
theorem expandChars_append (hvs : Templated vs) (htext : IsTemplate text) (rest : List Char) :
    (ofVariables vs).expandChars (text ++ rest) =
      (ofVariables vs).expandChars text ++ (ofVariables vs).expandChars rest := by
  induction vs using List.reverseRecOn with
  | nil => rfl
  | append_singleton vs v ih =>
    have hvs' : Templated vs := hvs.left
    have hname : IsName (replacerFor vs v).name := (hvs v (by simp)).1
    simp only [expandChars_append_singleton, ih hvs',
      Replacer.replace_append hname (isTemplate_expandChars hvs' htext)]

/-- What the pass of a recorded variable does to the placeholders of a template. -/
theorem occurs_expandChars_append_singleton_iff {v : Variable} (hvs : Templated (vs ++ [v]))
    (htext : IsTemplate text) {name : List Char} :
    Occurs name ((ofVariables (vs ++ [v])).expandChars text) ↔
      (Occurs name ((ofVariables vs).expandChars text) ∧ ¬ SameName v.1.toList name) ∨
        ((∃ own, Occurs own ((ofVariables vs).expandChars text) ∧ SameName v.1.toList own) ∧
          Occurs name ((ofVariables vs).expandChars v.2.toList)) := by
  have hvs' : Templated vs := hvs.left
  have hv := hvs v (by simp)
  have hname : IsName (replacerFor vs v).name := hv.1
  rw [expandChars_append_singleton]
  exact Replacer.occurs_replace_iff hname (isTemplate_expandChars hvs' hv.2)
    (isTemplate_expandChars hvs' htext)

/-- A text without placeholders of the variables is left as it is. -/
theorem expandChars_eq_self (hvs : ∀ v ∈ vs, IsName v.1.toList)
    (h : ∀ name, Occurs name text → ∀ v ∈ vs, ¬ SameName v.1.toList name) :
    (ofVariables vs).expandChars text = text := by
  induction vs using List.reverseRecOn with
  | nil => rfl
  | append_singleton vs v ih =>
    have hrest := ih (fun w hw => hvs w (by simp [hw])) fun name hname w hw =>
      h name hname w (by simp [hw])
    rw [expandChars_append_singleton, hrest]
    exact Replacer.replace_eq_self (hvs v (by simp)) fun name hname => h name hname v (by simp)

end VariableResolver

end HighlightGrammar

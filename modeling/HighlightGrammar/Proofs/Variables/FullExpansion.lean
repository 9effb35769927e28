import HighlightGrammar.Proofs.Variables.Survival

/-!
# Full expansion

What a text stands for is said without any order of declaration: read from left to right, a declared
placeholder is replaced by what the text of its variable stands for, and everything else stands for
itself. Without cycles the resolver finds exactly this. Its passes keep what a text stands for,
since a variable and its recorded text stand for the same, and in the end no declared placeholder is
left. -/
namespace HighlightGrammar

open Placeholder

/-- What a text stands for under a table of variables. -/
inductive FullyExpands (vs : List Variable) : List Char → List Char → Prop where
  | nil : FullyExpands vs [] []
  | char {c rest result} (plain : ¬ opening <+: c :: rest) (tail : FullyExpands vs rest result) :
      FullyExpands vs (c :: rest) (c :: result)
  | undeclared {name rest result} (named : IsName name)
      (unknown : ∀ v ∈ vs, ¬ SameName v.1.toList name) (tail : FullyExpands vs rest result) :
      FullyExpands vs (write name ++ rest) (write name ++ result)
  | declared {name rest value result v} (named : IsName name) (known : v ∈ vs)
      (same : SameName v.1.toList name) (meaning : FullyExpands vs v.2.toList value)
      (tail : FullyExpands vs rest result) :
      FullyExpands vs (write name ++ rest) (value ++ result)

namespace FullyExpands

variable {vs : List Variable} {x y out : List Char}

theorem cons_inv {c : Char} {rest : List Char} (h : FullyExpands vs (c :: rest) out)
    (plain : ¬ opening <+: c :: rest) :
    ∃ result, out = c :: result ∧ FullyExpands vs rest result := by
  generalize hx : c :: rest = x at h
  cases h with
  | nil => cases hx
  | char _ tail =>
    obtain ⟨rfl, rfl⟩ := List.cons.inj hx
    exact ⟨_, rfl, tail⟩
  | undeclared => exact absurd (hx ▸ opening_prefix_write _ _) plain
  | declared => exact absurd (hx ▸ opening_prefix_write _ _) plain

/-- What a placeholder at the front stands for. -/
theorem write_inv {name rest : List Char} (hname : IsName name)
    (h : FullyExpands vs (write name ++ rest) out) :
    (∃ result, (∀ v ∈ vs, ¬ SameName v.1.toList name) ∧ out = write name ++ result ∧
        FullyExpands vs rest result) ∨
      ∃ v value result, v ∈ vs ∧ SameName v.1.toList name ∧ out = value ++ result ∧
        FullyExpands vs v.2.toList value ∧ FullyExpands vs rest result := by
  generalize hx : write name ++ rest = x at h
  cases h with
  | nil => cases hx
  | char plain _ => exact absurd (hx ▸ opening_prefix_write name rest) plain
  | undeclared named unknown tail =>
    obtain ⟨rfl, rfl⟩ := write_append_inj hname named hx
    exact Or.inl ⟨_, unknown, rfl, tail⟩
  | declared named known same meaning tail =>
    obtain ⟨rfl, rfl⟩ := write_append_inj hname named hx
    exact Or.inr ⟨_, _, _, known, same, rfl, meaning, tail⟩

theorem literal_append {text rest result : List Char} (h : IsLiteral text)
    (hrest : FullyExpands vs rest result) : FullyExpands vs (text ++ rest) (text ++ result) := by
  induction text with
  | nil => exact hrest
  | cons c text ih => exact .char (h.not_opening_prefix rest) (ih h.tail)

theorem literal_inv {text rest : List Char} (h : IsLiteral text)
    (hout : FullyExpands vs (text ++ rest) out) :
    ∃ result, out = text ++ result ∧ FullyExpands vs rest result := by
  induction text generalizing out with
  | nil => exact ⟨out, rfl, hout⟩
  | cons c text ih =>
    obtain ⟨tail, rfl, htail⟩ := hout.cons_inv (h.not_opening_prefix rest)
    obtain ⟨result, rfl, hresult⟩ := ih h.tail htail
    exact ⟨result, rfl, hresult⟩

/-- What stands behind a template adds to what the template stands for. -/
theorem append_inv (hx : IsTemplate x) (h : FullyExpands vs (x ++ y) out) :
    ∃ front back, out = front ++ back ∧ FullyExpands vs x front ∧ FullyExpands vs y back := by
  induction hx generalizing out with
  | nil => exact ⟨[], out, rfl, .nil, h⟩
  | literal plain _ ih =>
    rw [List.append_assoc] at h
    obtain ⟨result, rfl, hresult⟩ := literal_inv plain h
    obtain ⟨front, back, rfl, hfront, hback⟩ := ih hresult
    exact ⟨_, back, (List.append_assoc ..).symm, hfront.literal_append plain, hback⟩
  | placeholder named _ ih =>
    rw [List.append_assoc] at h
    rcases write_inv named h with ⟨result, hunknown, rfl, hresult⟩ |
      ⟨v, value, result, hv, hsame, rfl, hvalue, hresult⟩
    · obtain ⟨front, back, rfl, hfront, hback⟩ := ih hresult
      exact ⟨_, back, (List.append_assoc ..).symm, .undeclared named hunknown hfront, hback⟩
    · obtain ⟨front, back, rfl, hfront, hback⟩ := ih hresult
      exact ⟨_, back, (List.append_assoc ..).symm, .declared named hv hsame hvalue hfront, hback⟩

/-- A text stands for one text only. -/
theorem unique {out' : List Char} (hdiffer : Distinguished vs) (h : FullyExpands vs x out)
    (h' : FullyExpands vs x out') : out = out' := by
  induction h generalizing out' with
  | nil =>
    generalize hx : ([] : List Char) = x at h'
    cases h' with
    | nil => rfl
    | char => cases hx
    | undeclared => cases hx
    | declared => cases hx
  | char plain _ ih =>
    obtain ⟨result, rfl, htail⟩ := h'.cons_inv plain
    rw [ih htail]
  | undeclared named unknown _ ih =>
    rcases write_inv named h' with ⟨result, -, rfl, htail⟩ | ⟨v, _, _, hv, hsame, -⟩
    · rw [ih htail]
    · exact absurd hsame (unknown v hv)
  | @declared name rest value result v named known same _ _ ihmeaning ihtail =>
    rcases write_inv named h' with ⟨_, hunknown, -⟩ | ⟨w, _, _, hw, hsame, rfl, hvalue, htail⟩
    · exact absurd same (hunknown v known)
    · obtain rfl := hdiffer.eq_of_sameName known hw same hsame
      rw [ihmeaning hvalue, ihtail htail]

/-- The order of declaration does not count. -/
theorem perm {ws : List Variable} (h : FullyExpands vs x out) (hperm : vs.Perm ws) :
    FullyExpands ws x out := by
  induction h with
  | nil => exact .nil
  | char plain _ ih => exact .char plain ih
  | undeclared named unknown _ ih =>
    exact .undeclared named (fun v hv => unknown v (hperm.mem_iff.2 hv)) ih
  | declared named known same _ _ ihmeaning ihtail =>
    exact .declared named (hperm.mem_iff.1 known) same ihmeaning ihtail

/-- A template without declared placeholders stands for itself. -/
theorem self (hx : IsTemplate x)
    (h : ∀ name, Occurs name x → ∀ v ∈ vs, ¬ SameName v.1.toList name) : FullyExpands vs x x := by
  induction hx with
  | nil => exact .nil
  | literal plain _ ih =>
    exact (ih fun name hname => h name ((occurs_literal_append plain _).2 hname)).literal_append
      plain
  | placeholder named _ ih =>
    refine .undeclared named (h _ ((occurs_write_append named _).2 (Or.inl rfl))) (ih ?_)
    exact fun name hname => h name ((occurs_write_append named _).2 (Or.inr hname))

/-- A pass of a variable keeps what a template stands for, if the replacement stands for nothing but
what the declared text stands for. -/
theorem of_replace {replacer : Replacer} {v : Variable} (hv : v ∈ vs)
    (hreplacer : replacer.name = v.1.toList) (hname : IsName replacer.name)
    (htemplate : IsTemplate replacer.replacement)
    (hmeaning : ∀ value, FullyExpands vs replacer.replacement value →
      FullyExpands vs v.2.toList value)
    (hx : IsTemplate x) (h : FullyExpands vs (replacer.replace x) out) : FullyExpands vs x out := by
  induction hx generalizing out with
  | nil => exact h
  | literal plain _ ih =>
    rw [Replacer.replace_literal_append hname plain] at h
    obtain ⟨result, rfl, hresult⟩ := literal_inv plain h
    exact (ih hresult).literal_append plain
  | @placeholder name rest named _ ih =>
    by_cases hsame : SameName replacer.name name
    · rw [Replacer.replace_own_append hname hsame] at h
      obtain ⟨front, back, rfl, hfront, hback⟩ := append_inv htemplate h
      exact .declared named hv (hreplacer ▸ hsame) (hmeaning front hfront) (ih hback)
    · rw [Replacer.replace_other_append hname named hsame] at h
      rcases write_inv named h with ⟨result, hunknown, rfl, hresult⟩ |
        ⟨w, value, result, hw, hwsame, rfl, hvalue, hresult⟩
      · exact .undeclared named hunknown (ih hresult)
      · exact .declared named hw hwsame hvalue (ih hresult)

/-- The passes of recorded variables keep what a template stands for. -/
theorem of_expandChars {ws : List Variable} (hvs : Templated vs) (hsub : ws ⊆ vs)
    (hx : IsTemplate x)
    (h : FullyExpands vs ((VariableResolver.ofVariables ws).expandChars x) out) :
    FullyExpands vs x out := by
  induction ws using List.reverseRecOn generalizing x out with
  | nil => exact h
  | append_singleton ws v ih =>
    have hws : ws ⊆ vs := fun w hw => hsub (by simp [hw])
    have hv : v ∈ vs := hsub (by simp)
    obtain ⟨hname, htext⟩ := hvs v hv
    have hrecorded := hvs.of_subset hws
    rw [VariableResolver.expandChars_append_singleton] at h
    refine ih hws hx (of_replace hv rfl hname ?_ ?_ ?_ h)
    · exact VariableResolver.isTemplate_expandChars hrecorded htext
    · exact fun value hvalue => ih hws htext hvalue
    · exact VariableResolver.isTemplate_expandChars hrecorded hx

end FullyExpands

namespace VariableResolver

variable {vs : List Variable} {text : List Char}

/-- Without cycles expanding finds what a template stands for. -/
theorem fullyExpands_expandChars (hvs : Templated vs) (hdiffer : Distinguished vs)
    (hacyclic : Acyclic vs) (htext : IsTemplate text) :
    FullyExpands vs text ((ofVariables vs).expandChars text) := by
  refine .of_expandChars hvs (List.Subset.refl vs) htext (.self ?_ fun name hname v hv hsame => ?_)
  · exact isTemplate_expandChars hvs htext
  · exact not_mentions_expandChars hvs hdiffer hacyclic htext hv ⟨name, hname, hsame⟩

/-- Without cycles expanding a second time changes nothing. -/
theorem expandChars_expandChars (hvs : Templated vs) (hdiffer : Distinguished vs)
    (hacyclic : Acyclic vs) (htext : IsTemplate text) :
    (ofVariables vs).expandChars ((ofVariables vs).expandChars text) =
      (ofVariables vs).expandChars text := by
  refine expandChars_eq_self (fun v hv => (hvs v hv).1) fun name hname v hv hsame => ?_
  exact not_mentions_expandChars hvs hdiffer hacyclic htext hv ⟨name, hname, hsame⟩

/-- Without cycles a resolver finds what a template stands for, whatever the order of declaration:
no declared placeholder is left, expanding again changes nothing, and the variables may change
places. -/
theorem expand_eq_fullExpansion [MatcherEngine] (table : VariableTable) (h : table.WellFormed)
    (hacyclic : Acyclic table.entries) :
    (∀ error, ofTable table = .error error → error.name ∈ table.names ∧
      MatcherEngine.compile error.name = .error error.reason) ∧
    ∀ resolver, ofTable table = .ok resolver → ∀ text : String, IsTemplate text.toList →
      (∀ result, FullyExpands table.entries text.toList result ↔
        result = (resolver.expand text).toList) ∧
      (∀ v ∈ table.entries, ¬ Mentions (resolver.expand text).toList v) ∧
      resolver.expand (resolver.expand text) = resolver.expand text ∧
      ∀ permuted : VariableTable, permuted.entries.Perm table.entries →
        ∃ other, ofTable permuted = .ok other ∧ other.expand text = resolver.expand text := by
  refine ⟨fun error herror => refused_of_ofTable herror, ?_⟩
  intro resolver hresolver text htext
  have hvs := h.templated
  have hdiffer := h.distinguished
  obtain rfl := eq_ofVariables_of_ofTable hresolver
  have hfull := fullyExpands_expandChars hvs hdiffer hacyclic htext
  refine ⟨fun result => ?_, fun v hv => ?_, ?_, fun permuted hperm => ?_⟩
  · rw [toList_expand]
    exact ⟨fun hresult => hresult.unique hdiffer hfull, fun heq => heq ▸ hfull⟩
  · rw [toList_expand]
    exact not_mentions_expandChars hvs hdiffer hacyclic htext hv
  · rw [← String.toList_inj, toList_expand, toList_expand]
    exact expandChars_expandChars hvs hdiffer hacyclic htext
  · have hvs' : Templated permuted.entries := hvs.of_subset hperm.subset
    have hdiffer' : Distinguished permuted.entries := hdiffer.perm hperm.symm
    have hfull' := fullyExpands_expandChars hvs' hdiffer' (hacyclic.perm hperm.symm) htext
    refine ⟨_, ofTable_eq_ok_iff.2 fun name hname => ?_, ?_⟩
    · exact ofTable_eq_ok_iff.1 hresolver name ((hperm.map Prod.fst).mem_iff.1 hname)
    · rw [← String.toList_inj, toList_expand, toList_expand]
      exact (hfull'.perm hperm).unique hdiffer hfull

attribute [local instance] MatcherEngine.unlimited

/-- Variables that refer backwards and forwards, in three spellings. -/
def chain : VariableTable :=
  .ofList [("a", "x{{B}}$1"), ("b", "y{{c}}{{d}}"), ("C", "{z}"), ("e", "{{a}}{{C}}")]

theorem expand_chain :
    chain.WellFormed ∧ Acyclic chain.entries ∧ IsTemplate "{{E}}|{{A}}".toList ∧
      ∃ resolver, ofTable chain = .ok resolver ∧
        FullyExpands chain.entries "{{E}}|{{A}}".toList "xy{z}{{d}}$1{z}|xy{z}{{d}}$1".toList := by
  have hwell : chain.WellFormed := by decide +kernel
  have hacyclic : Acyclic chain.entries := by
    refine acyclic_of_rank (fun v => ["C", "b", "a", "e"].idxOf v.1) ?_
    decide +kernel
  have htext : IsTemplate "{{E}}|{{A}}".toList := by decide +kernel
  have hok : ofTable chain = .ok (ofVariables chain.entries) := ofTable_unlimited _
  have hfull := (expand_eq_fullExpansion chain hwell hacyclic).2 _ hok "{{E}}|{{A}}" htext
  exact ⟨hwell, hacyclic, htext, _, hok, (hfull.1 _).2 (by decide +kernel)⟩

end VariableResolver

end HighlightGrammar

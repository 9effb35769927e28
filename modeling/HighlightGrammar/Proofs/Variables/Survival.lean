import HighlightGrammar.Proofs.Variables.Recording

/-!
# Which placeholders survive

The variables make their passes one after the other, and no pass looks again at what it has put in.
Before its own pass a variable is mentioned exactly where it is reached through the variables that
have made theirs. Its own pass takes it away unless its recorded text mentions it, which is so
exactly when it closes a cycle; every later pass carries it along as it carries any other name. -/
namespace HighlightGrammar

open Placeholder

/-- A table whose names are free of braces and different up to letter case, and whose texts are
templates. -/
structure VariableTable.WellFormed (table : VariableTable) : Prop where
  templated : Templated table.entries
  distinguished : Distinguished table.entries

instance (table : VariableTable) : Decidable table.WellFormed :=
  decidable_of_iff (Templated table.entries ∧ Distinguished table.entries)
    ⟨fun h => ⟨h.1, h.2⟩, fun h => ⟨h.1, h.2⟩⟩

namespace VariableResolver

variable {vs : List Variable} {text : List Char}

/-- A name that no recorded variable has is there after expanding exactly if it was reached. -/
theorem occurs_expandChars_iff (hvs : Templated vs) (hdiffer : Distinguished vs)
    (htext : IsTemplate text) {name : List Char}
    (hname : ∀ v ∈ vs, ¬ SameName v.1.toList name) :
    Occurs name ((ofVariables vs).expandChars text) ↔ Reaches vs text name := by
  induction vs using List.reverseRecOn generalizing text name with
  | nil => exact reaches_nil_iff.symm
  | append_singleton vs v ih =>
    have hvs' : Templated vs := hvs.left
    obtain ⟨hdiffer', -, hv⟩ := List.pairwise_append.1 hdiffer
    have hbefore : ∀ {x : List Char}, IsTemplate x →
        (Occurs name ((ofVariables vs).expandChars x) ↔ Reaches vs x name) := fun hx =>
      ih hvs' hdiffer' hx fun w hw => hname w (by simp [hw])
    have hown : (∃ own, Occurs own ((ofVariables vs).expandChars text) ∧
        SameName v.1.toList own) ↔ ReachesVariable vs text v := by
      refine exists_congr fun own => and_congr_left fun hsame => ih hvs' hdiffer' htext ?_
      exact fun w hw h => hv w hw v (by simp) (h.trans hsame.symm)
    rw [occurs_expandChars_append_singleton_iff hvs htext, hbefore htext,
      hbefore (hvs v (by simp)).2, hown, reaches_append_singleton_iff]
    have hne := hname v (by simp)
    tauto

/-- Before its own pass a variable is mentioned exactly if it was reached. -/
theorem mentions_expandChars_iff_reaches {v : Variable} (hvs : Templated vs)
    (hdiffer : Distinguished (vs ++ [v])) (htext : IsTemplate text) :
    Mentions ((ofVariables vs).expandChars text) v ↔ ReachesVariable vs text v := by
  obtain ⟨hdiffer', -, hv⟩ := List.pairwise_append.1 hdiffer
  refine exists_congr fun name => and_congr_left fun hsame => ?_
  refine occurs_expandChars_iff hvs hdiffer' htext fun w hw h => ?_
  exact hv w hw v (by simp) (h.trans hsame.symm)

/-- The own pass of a variable leaves it there only if its recorded text brings it again. -/
theorem mentions_expandChars_own_iff {v : Variable} (hvs : Templated (vs ++ [v]))
    (htext : IsTemplate text) :
    Mentions ((ofVariables (vs ++ [v])).expandChars text) v ↔
      Mentions ((ofVariables vs).expandChars text) v ∧
        Mentions ((ofVariables vs).expandChars v.2.toList) v := by
  simp only [Mentions.eq_1 _ v, occurs_expandChars_append_singleton_iff hvs htext]
  constructor
  · rintro ⟨name, ⟨-, hne⟩ | ⟨hown, hbrought⟩, hsame⟩
    · exact absurd hsame hne
    · exact ⟨hown, name, hbrought, hsame⟩
  · rintro ⟨hown, name, hbrought, hsame⟩
    exact ⟨name, Or.inr ⟨hown, hbrought⟩, hsame⟩

/-- The pass of another variable keeps a variable and may bring it. -/
theorem mentions_expandChars_other_iff {v w : Variable} (hvs : Templated (vs ++ [w]))
    (hne : Differ v w) (htext : IsTemplate text) :
    Mentions ((ofVariables (vs ++ [w])).expandChars text) v ↔
      Mentions ((ofVariables vs).expandChars text) v ∨
        (Mentions ((ofVariables vs).expandChars text) w ∧
          Mentions ((ofVariables vs).expandChars w.2.toList) v) := by
  simp only [Mentions, occurs_expandChars_append_singleton_iff hvs htext]
  constructor
  · rintro ⟨name, ⟨hkept, -⟩ | ⟨hown, hbrought⟩, hsame⟩
    · exact Or.inl ⟨name, hkept, hsame⟩
    · exact Or.inr ⟨hown, name, hbrought, hsame⟩
  · rintro (⟨name, hkept, hsame⟩ | ⟨hown, name, hbrought, hsame⟩)
    · exact ⟨name, Or.inl ⟨hkept, fun h => hne (hsame.trans h.symm)⟩, hsame⟩
    · exact ⟨name, Or.inr ⟨hown, hbrought⟩, hsame⟩

/-- A recorded variable is mentioned after expanding exactly if it was reached and its own text
comes back to it through the variables before it. -/
theorem mentions_expandChars_iff {earlier later : List Variable} {v : Variable}
    (hvs : Templated (earlier ++ v :: later)) (hdiffer : Distinguished (earlier ++ v :: later))
    (htext : IsTemplate text) :
    Mentions ((ofVariables (earlier ++ v :: later)).expandChars text) v ↔
      ReachesVariable (earlier ++ v :: later) text v ∧ ReachesVariable earlier v.2.toList v := by
  induction later using List.reverseRecOn generalizing text with
  | nil =>
    have hearlier : Templated earlier := hvs.left
    rw [mentions_expandChars_own_iff hvs htext, reachesVariable_append_self_iff,
      mentions_expandChars_iff_reaches hearlier hdiffer htext,
      mentions_expandChars_iff_reaches hearlier hdiffer (hvs v (by simp)).2]
  | append_singleton later w ih =>
    have hsplit : earlier ++ v :: (later ++ [w]) = (earlier ++ v :: later) ++ [w] := by simp
    rw [hsplit] at hvs hdiffer ⊢
    have hvs' : Templated (earlier ++ v :: later) := hvs.left
    obtain ⟨hdiffer', -, hw⟩ := List.pairwise_append.1 hdiffer
    have hne : Differ v w := hw v (by simp) w (by simp)
    have hwtext := (hvs w (by simp)).2
    rw [mentions_expandChars_other_iff hvs hne htext, ih hvs' hdiffer' htext,
      ih hvs' hdiffer' hwtext, mentions_expandChars_iff_reaches hvs' hdiffer htext,
      reachesVariable_append_singleton_iff]
    tauto

/-- A recorded variable is mentioned after expanding exactly if it was reached and is the last
declared member of some cycle. -/
theorem mentions_expandChars_iff_closesCycle (hvs : Templated vs) (hdiffer : Distinguished vs)
    (htext : IsTemplate text) {v : Variable} (hv : v ∈ vs) :
    Mentions ((ofVariables vs).expandChars text) v ↔
      ReachesVariable vs text v ∧ ClosesCycle vs v := by
  have hspec : ∀ earlier later, vs = earlier ++ v :: later →
      (Mentions ((ofVariables vs).expandChars text) v ↔
        ReachesVariable vs text v ∧ ReachesVariable earlier v.2.toList v) := by
    rintro earlier later rfl
    exact mentions_expandChars_iff hvs hdiffer htext
  rw [closesCycle_iff hdiffer.nodup]
  constructor
  · intro hmentions
    obtain ⟨earlier, later, hsplit⟩ := List.append_of_mem hv
    obtain ⟨hreach, hclose⟩ := (hspec earlier later hsplit).1 hmentions
    exact ⟨hreach, earlier, later, hsplit, hclose⟩
  · rintro ⟨hreach, earlier, later, hsplit, hclose⟩
    exact (hspec earlier later hsplit).2 ⟨hreach, hclose⟩

/-- Without cycles no declared placeholder is left. -/
theorem not_mentions_expandChars (hvs : Templated vs) (hdiffer : Distinguished vs)
    (hacyclic : Acyclic vs) (htext : IsTemplate text) {v : Variable} (hv : v ∈ vs) :
    ¬ Mentions ((ofVariables vs).expandChars text) v := by
  rw [mentions_expandChars_iff_closesCycle hvs hdiffer htext hv]
  rintro ⟨-, _, _, cycle, -, hcycle, -⟩
  exact hacyclic cycle hcycle

/-- A declared placeholder survives exactly when its variable is reached and is the last declared
member of some cycle. -/
theorem mentions_expand_iff [MatcherEngine] (table : VariableTable) (h : table.WellFormed) :
    (∀ error, ofTable table = .error error → error.name ∈ table.names ∧
      MatcherEngine.compile error.name = .error error.reason) ∧
    ∀ resolver, ofTable table = .ok resolver →
      ∀ text : String, IsTemplate text.toList → ∀ v ∈ table.entries,
        (Mentions (resolver.expand text).toList v ↔
          ReachesVariable table.entries text.toList v ∧ ClosesCycle table.entries v) := by
  refine ⟨fun error herror => refused_of_ofTable herror, ?_⟩
  intro resolver hresolver text htext v hv
  rw [eq_ofVariables_of_ofTable hresolver, toList_expand]
  exact mentions_expandChars_iff_closesCycle h.templated h.distinguished htext hv

attribute [local instance] MatcherEngine.unlimited

/-- Two variables that refer to each other, and a third one that leads into their cycle. -/
def loop : VariableTable := .ofList [("a", "{{B}}"), ("b", "x{{a}}"), ("c", "{{A}}|{{d}}")]

theorem mentions_expand_loop :
    loop.WellFormed ∧ IsTemplate "{{C}}".toList ∧ ∃ resolver, ofTable loop = .ok resolver ∧
      Mentions (resolver.expand "{{C}}").toList ("b", "x{{a}}") ∧
        ReachesVariable loop.entries "{{C}}".toList ("b", "x{{a}}") ∧
        ClosesCycle loop.entries ("b", "x{{a}}") := by
  have hwell : loop.WellFormed := by decide +kernel
  have htext : IsTemplate "{{C}}".toList := by decide +kernel
  have hok : ofTable loop = .ok (ofVariables loop.entries) := ofTable_unlimited _
  have hmentions : Mentions ((ofVariables loop.entries).expand "{{C}}").toList ("b", "x{{a}}") := by
    decide +kernel
  have hiff := (mentions_expand_iff loop hwell).2 _ hok "{{C}}" htext ("b", "x{{a}}")
    (by decide +kernel)
  exact ⟨hwell, htext, _, hok, hmentions, hiff.1 hmentions⟩

end VariableResolver

end HighlightGrammar

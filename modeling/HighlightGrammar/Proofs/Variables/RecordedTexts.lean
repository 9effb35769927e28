import HighlightGrammar.Proofs.Variables.Survival

/-!
# Recorded texts

A variable is recorded with what the variables before it make of its text, and no later variable
changes the record. So a recorded text keeps its references to itself and to later variables, those
included that it takes over from the variables it embeds, spelled as they are written there. Of the
variables before it, it refers to those only that close a cycle among them. -/
namespace HighlightGrammar

open Placeholder

namespace VariableResolver

variable {earlier later : List Variable} {v : Variable}

theorem replacers_append_singleton (vs : List Variable) (v : Variable) :
    (ofVariables (vs ++ [v])).replacers = (ofVariables vs).replacers ++ [replacerFor vs v] := by
  simp [ofVariables, record, replacerFor]

theorem names_replacers (vs : List Variable) :
    (ofVariables vs).replacers.map Replacer.name = vs.map fun v => v.1.toList := by
  induction vs using List.reverseRecOn with
  | nil => rfl
  | append_singleton vs v ih => simp [replacers_append_singleton, ih, replacerFor]

theorem length_replacers (vs : List Variable) :
    (ofVariables vs).replacers.length = vs.length := by
  simpa using congrArg List.length (names_replacers vs)

/-- Recording more variables leaves the recorded ones as they are. -/
theorem replacers_prefix (earlier later : List Variable) :
    (ofVariables earlier).replacers <+: (ofVariables (earlier ++ later)).replacers := by
  induction later using List.reverseRecOn with
  | nil => simp
  | append_singleton later v ih =>
    rw [← List.append_assoc, replacers_append_singleton]
    exact ih.trans (List.prefix_append _ _)

/-- The recorded text of a variable is its own text, expanded by the variables before it. -/
theorem resolved?_ofVariables (hdistinct : ((earlier ++ v :: later).map Prod.fst).Nodup) :
    (ofVariables (earlier ++ v :: later)).resolved? v.1 =
      some (String.ofList ((ofVariables earlier).expandChars v.2.toList)) := by
  have hsplit : earlier ++ v :: later = (earlier ++ [v]) ++ later := by simp
  obtain ⟨behind, hbehind⟩ := replacers_prefix (earlier ++ [v]) later
  rw [replacers_append_singleton] at hbehind
  -- The record stands right behind those of the earlier variables, and none of them has its name.
  have hearlier : (ofVariables earlier).replacers.find? (fun r => r.name == v.1.toList) = none := by
    rw [List.find?_eq_none]
    intro r hr hname
    have hmem : r.name ∈ (ofVariables earlier).replacers.map Replacer.name :=
      List.mem_map_of_mem hr
    rw [names_replacers, List.mem_map] at hmem
    obtain ⟨u, hu, hur⟩ := hmem
    have hsame : u.1 = v.1 := by
      rw [← String.toList_inj, hur]
      simpa using hname
    rw [List.map_append, List.map_cons, List.nodup_append] at hdistinct
    exact hdistinct.2.2 u.1 (List.mem_map_of_mem hu) v.1 (by simp) hsame
  rw [resolved?, hsplit, ← hbehind, List.find?_append, List.find?_append, hearlier]
  simp [replacerFor]

/-- A recorded text holds the placeholders of its own variable and of later ones, and of names that
nobody has, exactly where the declared text reaches them through the variables before it. It holds
those of a variable before it exactly if it reaches this variable in the same way and the variable
is the last one of a cycle among those before. -/
structure Records (earlier later : List Variable) (v : Variable) (recorded : String) : Prop where
  forward : ∀ w ∈ v :: later, Mentions recorded.toList w ↔ ReachesVariable earlier v.2.toList w
  verbatim : ∀ name, (∀ u ∈ earlier, ¬ SameName u.1.toList name) →
    (Occurs name recorded.toList ↔ Reaches earlier v.2.toList name)
  backward : ∀ u ∈ earlier, Mentions recorded.toList u ↔
    ReachesVariable earlier v.2.toList u ∧ ClosesCycle earlier u

theorem records_expandChars (hvs : Templated (earlier ++ v :: later))
    (hdiffer : Distinguished (earlier ++ v :: later)) :
    Records earlier later v (String.ofList ((ofVariables earlier).expandChars v.2.toList)) := by
  have hearlier : Templated earlier := hvs.left
  have htext := (hvs v (by simp)).2
  have hdistinguished : Distinguished earlier := hdiffer.sublist (List.sublist_append_left _ _)
  constructor
  · intro w hw
    have hbehind : Distinguished (earlier ++ [w]) := by
      apply hdiffer.sublist
      exact (List.Sublist.refl earlier).append (List.singleton_sublist.2 hw)
    rw [String.toList_ofList]
    exact mentions_expandChars_iff_reaches hearlier hbehind htext
  · intro name hname
    rw [String.toList_ofList]
    exact occurs_expandChars_iff hearlier hdistinguished htext hname
  · intro u hu
    rw [String.toList_ofList]
    exact mentions_expandChars_iff_closesCycle hearlier hdistinguished htext hu

/-- A variable is recorded with the references that its text reaches through the variables declared
before it. -/
theorem records_resolved [MatcherEngine] (table : VariableTable) (h : table.WellFormed) :
    (∀ error, ofTable table = .error error → error.name ∈ table.names ∧
      MatcherEngine.compile error.name = .error error.reason) ∧
    ∀ resolver, ofTable table = .ok resolver →
      ∀ earlier v later, table.entries = earlier ++ v :: later →
        ∃ recorded, resolver.resolved? v.1 = some recorded ∧ Records earlier later v recorded := by
  refine ⟨fun error herror => refused_of_ofTable herror, ?_⟩
  intro resolver hresolver earlier v later hsplit
  have hvs := h.templated
  have hdiffer := h.distinguished
  have hdistinct := table.distinct
  rw [hsplit] at hvs hdiffer hdistinct
  refine ⟨_, ?_, records_expandChars hvs hdiffer⟩
  rw [eq_ofVariables_of_ofTable hresolver, hsplit]
  exact resolved?_ofVariables hdistinct

attribute [local instance] MatcherEngine.unlimited

/-- A text that takes over a reference to a later variable and one to itself from the variable that
it embeds, and a text that refers back into this cycle. -/
def inherited : VariableTable :=
  .ofList [("a", "x{{C}}{{b}}"), ("b", "{{A}}|{{d}}"), ("c", "{{B}}"), ("D", "y")]

theorem records_resolved_inherited :
    inherited.WellFormed ∧ ∃ resolver, ofTable inherited = .ok resolver ∧
      resolver.resolved? "b" = some "x{{C}}{{b}}|{{d}}" ∧
      Records [("a", "x{{C}}{{b}}")] [("c", "{{B}}"), ("D", "y")] ("b", "{{A}}|{{d}}")
        "x{{C}}{{b}}|{{d}}" := by
  have hwell : inherited.WellFormed := by decide +kernel
  have hok : ofTable inherited = .ok (ofVariables inherited.entries) := ofTable_unlimited _
  have hsplit : inherited.entries =
      [("a", "x{{C}}{{b}}")] ++ ("b", "{{A}}|{{d}}") :: [("c", "{{B}}"), ("D", "y")] := by
    decide +kernel
  have htext : (ofVariables inherited.entries).resolved? "b" = some "x{{C}}{{b}}|{{d}}" := by
    decide +kernel
  obtain ⟨recorded, hrecorded, hrecords⟩ :=
    (records_resolved inherited hwell).2 _ hok _ _ _ hsplit
  obtain rfl := Option.some.inj (htext.symm.trans hrecorded)
  exact ⟨hwell, _, hok, htext, hrecords⟩

end VariableResolver

end HighlightGrammar

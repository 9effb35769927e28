import HighlightGrammar.Proofs.Documents.Unresolved

/-!
# What the report says about further variables

The report goes through the visited texts and tells the sites of each one, from left to right. A
variable finds its placeholders at sites only, so where nothing is reported no variables can change
anything, whatever their texts; and a placeholder that is reported can be changed by a variable of
its name. -/
namespace HighlightGrammar

open Placeholder VariableResolver

namespace Grammar

/-- What is reported about a site of a visited text. -/
def reportOf (visit : Visit) (site : Site) : UnresolvedPlaceholder :=
  ⟨visit.path.text, visit.field, String.ofList site.name⟩

theorem placeholdersIn_eq_map_sites (visit : Visit) :
    placeholdersIn visit = (sites visit.text.toList).map (reportOf visit) := by
  rw [placeholdersIn, names, namesFrom_eq_map_sites, List.map_map, List.map_map]
  rfl

/-- The report tells every site of every visited text once, text by text and from left to right. -/
theorem unresolved_eq_flatMap_sites (grammar : Grammar) :
    (grammar.unresolved = grammar.body.visits.flatMap fun visit =>
      (sites visit.text.toList).map (reportOf visit)) ∧
    ∀ visit ∈ grammar.body.visits, ListsSites visit.text.toList (sites visit.text.toList) := by
  constructor
  · rw [unresolved]
    apply List.flatMap_congr
    intro visit _
    exact placeholdersIn_eq_map_sites visit
  · intro visit _
    exact listsSites_sites visit.text.toList

section

variable [MatcherEngine] {grammar : Grammar} {table : VariableTable} {resolver : VariableResolver}

/-- Variables of which no placeholder is reported change nothing. -/
theorem resolve_eq_self_of_unreported (hresolver : ofTable table = .ok resolver)
    (hnames : ∀ name ∈ table.names, IsName name.toList)
    (h : ∀ p ∈ grammar.unresolved, ∀ name ∈ table.names, ¬ SameName name.toList p.name.toList) :
    resolver.resolve grammar.body = grammar := by
  apply congrArg Grammar.mk
  apply GrammarBody.mapPatterns_eq_self
  intro visit hvisit
  rw [eq_ofVariables_of_ofTable hresolver, ← String.toList_inj, toList_expand]
  apply expandChars_eq_self
  · exact fun v hv => hnames v.1 (List.mem_map_of_mem hv)
  · intro name hname v hv hsame
    have hreported : ⟨visit.path.text, visit.field, String.ofList name⟩ ∈ grammar.unresolved := by
      apply mem_unresolved_iff.2
      exact ⟨visit, hvisit, rfl, rfl, by rwa [String.toList_ofList]⟩
    apply h _ hreported v.1 (List.mem_map_of_mem hv)
    rwa [String.toList_ofList]

/-- A variable without text that has the name of a reported placeholder changes the grammar. -/
theorem resolve_ne_self_of_reported {p : UnresolvedPlaceholder} (hp : p ∈ grammar.unresolved)
    (hresolver : ofTable (.ofList [(p.name, "")]) = .ok resolver) :
    resolver.resolve grammar.body ≠ grammar := by
  intro hsame
  obtain ⟨visit, hvisit, -, -, hoccurs⟩ := mem_unresolved_iff.1 hp
  have hvisits : grammar.body.visits.map (Visit.revise fun _ text => resolver.expand text) =
      grammar.body.visits.map id := by
    rw [← visits_resolve, hsame, List.map_id]
  have hkept := List.map_inj_left.1 hvisits _ hvisit
  have htext : (resolver.expand visit.text).toList = visit.text.toList :=
    congrArg (fun v : Visit => v.text.toList) hkept
  rw [eq_ofVariables_of_ofTable hresolver, toList_expand] at htext
  -- The only pass takes the placeholder away, so the text cannot stay as long as it is.
  have hpass : (replacerFor [] (p.name, "")).replace visit.text.toList = visit.text.toList := htext
  have hshorter : ((replacerFor [] (p.name, "")).replace visit.text.toList).length <
      visit.text.toList.length := Replacer.length_replace_lt hoccurs.1 rfl hoccurs rfl
  rw [hpass] at hshorter
  exact Nat.lt_irrefl _ hshorter

/-- Nothing reported means that no variables change the grammar; and each reported placeholder whose
name the engine makes a matcher for is changed by some variables. -/
theorem resolve_eq_self_of_unresolved_eq_nil (grammar : Grammar) :
    (grammar.unresolved = [] → ∀ table resolver, (∀ name ∈ table.names, IsName name.toList) →
      ofTable table = .ok resolver → resolver.resolve grammar.body = grammar) ∧
    ∀ p ∈ grammar.unresolved, MatcherEngine.compile p.name = .ok () → ∃ table resolver,
      (∀ name ∈ table.names, IsName name.toList) ∧ ofTable table = .ok resolver ∧
        resolver.resolve grammar.body ≠ grammar := by
  constructor
  · intro hnone table resolver hnames hresolver
    apply resolve_eq_self_of_unreported hresolver hnames
    intro p hp
    rw [hnone] at hp
    cases hp
  · intro p hp hcompiles
    have hnames : (VariableTable.ofList [(p.name, "")]).names = [p.name] := rfl
    have hok : ofTable (.ofList [(p.name, "")]) =
        .ok (ofVariables (VariableTable.ofList [(p.name, "")]).entries) := by
      apply ofTable_eq_ok_iff.2
      simpa [hnames] using hcompiles
    refine ⟨_, _, ?_, hok, resolve_ne_self_of_reported hp hok⟩
    obtain ⟨visit, -, -, -, named, -⟩ := mem_unresolved_iff.1 hp
    simpa [hnames] using named

end

attribute [local instance] MatcherEngine.unlimited

/-- A grammar with braces all over its texts and no placeholder. -/
def strayBraces : Grammar where
  body :=
    { attributes := []
      patterns := some [⟨.single "\x7b{a}|{B}\x7d\x7b\x7b", [(.endPattern, "\x7b\x7b{a}")],
        none, none, [], []⟩]
      repository := some [("block",
        ⟨.region "\x7d\x7da\x7b\x7b" (some "\x7b\x7ba\x7b\x7bb") none, [], none, none, [], []⟩)] }

theorem resolve_strayBraces : strayBraces.unresolved = [] ∧
    (∀ name ∈ loop.names, IsName name.toList) ∧ ∃ resolver, ofTable loop = .ok resolver ∧
      resolver.resolve strayBraces.body = strayBraces := by
  have hnone : strayBraces.unresolved = [] := by decide +kernel
  have hnames : ∀ name ∈ loop.names, IsName name.toList := by decide +kernel
  have hok : ofTable loop = .ok (ofVariables loop.entries) := ofTable_unlimited _
  have hsame := (resolve_eq_self_of_unresolved_eq_nil strayBraces).1 hnone _ _ hnames hok
  exact ⟨hnone, hnames, _, hok, hsame⟩

end Grammar

end HighlightGrammar

import HighlightGrammar.Proofs.Documents.Unresolved
import HighlightGrammar.Proofs.Variables.Overriding

/-!
# What becomes of an override

Overrides are declared by their exact spelling, and a placeholder goes to the first variable that
answers to its name, letter case aside. So an override decides what its placeholder becomes unless
the document declares another spelling of the name in front of it. -/
namespace HighlightGrammar

open Placeholder

/-- The first of several variables that answers to a name. -/
def firstAnswering (vs : List Variable) (name : String) : Option Variable :=
  vs.find? fun v => SameName v.1.toList name.toList

theorem Placeholder.not_occurs_of_isName {name text : List Char} (h : IsName text) :
    ¬ Occurs name text := by
  rintro ⟨-, before, after, rfl⟩
  exact isNameChar_iff.1 (h '{' (by simp [write])) (Or.inl rfl)

namespace VariableResolver

variable {vs : List Variable}

/-- A placeholder becomes the text of the first variable that answers to it, if that text has no
braces. -/
theorem expandChars_write {v : Variable} {name : String} (hvs : Templated vs)
    (hfirst : firstAnswering vs name = some v) (hplain : IsName v.2.toList) :
    (ofVariables vs).expandChars (write name.toList) = v.2.toList := by
  obtain ⟨hsame, earlier, later, rfl, hearlier⟩ := List.find?_eq_some_iff_append.1 hfirst
  have hsame : SameName v.1.toList name.toList := by simpa using hsame
  have hname := (hvs v (by simp)).1
  induction later using List.reverseRecOn with
  | nil =>
    have hbefore : ∀ w ∈ earlier, IsName w.1.toList := fun w hw => (hvs w (by simp [hw])).1
    have hkept : (ofVariables earlier).expandChars (write name.toList) = write name.toList := by
      refine expandChars_eq_self hbefore fun found hfound w hw hother => ?_
      rw [← List.append_nil (write _), occurs_write_append (hsame.isName hname)] at hfound
      rcases hfound with rfl | hfound
      · simpa [hother] using hearlier w hw
      · exact not_occurs_nil _ hfound
    have hrecorded : (ofVariables earlier).expandChars v.2.toList = v.2.toList :=
      expandChars_eq_self hbefore fun found hfound => absurd hfound (not_occurs_of_isName hplain)
    have hpass : (replacerFor earlier v).replace (write name.toList ++ []) = _ :=
      Replacer.replace_own_append hname hsame []
    rw [List.append_nil] at hpass
    rw [expandChars_append_singleton, hkept, hpass]
    simp [replacerFor, hrecorded, Replacer.replace, Replacer.replaceFrom]
  | append_singleton later w ih =>
    have hsplit : earlier ++ v :: (later ++ [w]) = (earlier ++ v :: later) ++ [w] := by simp
    rw [hsplit] at hvs hfirst ⊢
    have hvs' : Templated (earlier ++ v :: later) := hvs.left
    have hfirst' : firstAnswering (earlier ++ v :: later) name = some v :=
      List.find?_eq_some_iff_append.2 ⟨by simpa using hsame, earlier, later, rfl, hearlier⟩
    rw [expandChars_append_singleton, ih hvs' hfirst']
    exact Replacer.replace_eq_self (hvs w (by simp)).1
      fun found hfound => absurd hfound (not_occurs_of_isName hplain)

end VariableResolver

namespace VariableTable

variable {table overrides : VariableTable} {name text : String}

/-- The first declared name that answers to a name. -/
def firstName (table : VariableTable) (name : String) : Option String :=
  table.names.find? fun declared => SameName declared.toList name.toList

theorem map_firstAnswering (table : VariableTable) (name : String) :
    (firstAnswering table.entries name).map Prod.fst = table.firstName name := by
  rw [firstName, names, List.find?_map]
  rfl

theorem firstAnswering_eq_some_iff {v : Variable} :
    firstAnswering table.entries name = some v ↔
      table.firstName name = some v.1 ∧ table.get? v.1 = some v.2 := by
  constructor
  · intro h
    rw [← map_firstAnswering, h, get?_eq_some_iff]
    exact ⟨rfl, List.mem_of_find?_eq_some h⟩
  · rintro ⟨hname, hget⟩
    rw [← map_firstAnswering, Option.map_eq_some_iff] at hname
    obtain ⟨w, hw, hsame⟩ := hname
    have hwget := get?_eq_some_iff.2 (List.mem_of_find?_eq_some hw)
    rw [hsame, hget, Option.some.injEq] at hwget
    rw [hw, Prod.ext hsame hwget.symm]

theorem get?_of_mem_of_sameName (hdiffer : Distinguished overrides.entries)
    (hmem : (name, text) ∈ overrides.entries) {declared : String}
    (hsame : SameName declared.toList name.toList) :
    overrides.get? declared = if declared = name then some text else none := by
  split
  · next heq => exact heq ▸ get?_eq_some_iff.2 hmem
  · next hne =>
    rw [Option.eq_none_iff_forall_ne_some]
    intro other hother
    have heq := hdiffer.eq_of_sameName (get?_eq_some_iff.1 hother) hmem hsame rfl
    exact hne (congrArg Prod.fst heq)

theorem firstName_applyOverrides (hdiffer : Distinguished overrides.entries)
    (hmem : (name, text) ∈ overrides.entries) :
    (table.applyOverrides overrides).firstName name = (table.firstName name).or (some name) := by
  rw [firstName, names_applyOverrides, List.find?_append]
  cases hdeclared : table.firstName name with
  | some declared =>
    rw [firstName] at hdeclared
    rw [hdeclared]
    rfl
  | none =>
    rw [firstName] at hdeclared
    rw [hdeclared, Option.none_or, Option.none_or]
    have hunknown : name ∉ table.names := fun h =>
      List.find?_eq_none.1 hdeclared name h (decide_eq_true rfl)
    have hlisted : name ∈ (overrides.byName.map Prod.fst).filter (· ∉ table.names) := by
      rw [List.mem_filter, (overrides.byName_perm.map Prod.fst).mem_iff]
      exact ⟨List.mem_map_of_mem hmem, decide_eq_true hunknown⟩
    cases hfound : ((overrides.byName.map Prod.fst).filter (· ∉ table.names)).find?
        fun declared => SameName declared.toList name.toList with
    | none => exact absurd (decide_eq_true rfl) (List.find?_eq_none.1 hfound name hlisted)
    | some declared =>
      have hmember := (List.mem_filter.1 (List.mem_of_find?_eq_some hfound)).1
      rw [(overrides.byName_perm.map Prod.fst).mem_iff, List.mem_map] at hmember
      obtain ⟨v, hv, rfl⟩ := hmember
      have hsame : SameName v.1.toList name.toList := by simpa using List.find?_some hfound
      rw [hdiffer.eq_of_sameName hv hmem hsame rfl]

/-- Of the overrides only one answers to its name, so another variable answers first only if the
document declares it and spells the name differently. -/
theorem firstAnswering_applyOverrides (hdiffer : Distinguished overrides.entries)
    (hmem : (name, text) ∈ overrides.entries) :
    firstAnswering (table.applyOverrides overrides).entries name =
      match firstAnswering table.entries name with
      | some v => if v.1 = name then some (name, text) else some v
      | none => some (name, text) := by
  have hoverride : overrides.get? name = some text := get?_eq_some_iff.2 hmem
  have hfirstName : (table.applyOverrides overrides).firstName name = _ :=
    firstName_applyOverrides hdiffer hmem
  cases hfirst : firstAnswering table.entries name with
  | none =>
    have hnone : table.firstName name = none := by rw [← map_firstAnswering, hfirst]; rfl
    refine firstAnswering_eq_some_iff.2 ⟨by simp [hfirstName, hnone], ?_⟩
    rw [get?_applyOverrides, hoverride]
    rfl
  | some v =>
    obtain ⟨hname, hget⟩ := firstAnswering_eq_some_iff.1 hfirst
    have hsame : SameName v.1.toList name.toList := by simpa using List.find?_some hfirst
    have hv := get?_of_mem_of_sameName hdiffer hmem hsame
    dsimp only
    split
    · next heq =>
      refine firstAnswering_eq_some_iff.2 ⟨by simp [hfirstName, hname, heq], ?_⟩
      rw [get?_applyOverrides, hoverride]
      rfl
    · next hne =>
      refine firstAnswering_eq_some_iff.2 ⟨by simp [hfirstName, hname], ?_⟩
      rw [get?_applyOverrides, hv, if_neg hne, hget]
      rfl

end VariableTable

theorem firstAnswering_congr {vs : List Variable} {name other : String}
    (h : SameName name.toList other.toList) :
    firstAnswering vs name = firstAnswering vs other := by
  rw [firstAnswering, firstAnswering]
  congr 1
  funext v
  have hiff : SameName v.1.toList name.toList ↔ SameName v.1.toList other.toList :=
    ⟨fun hv => hv.trans h, fun hv => hv.trans h.symm⟩
  simp [hiff]

namespace GrammarLoader

variable {loader : GrammarLoader} {document : Document} {overrides : VariableTable}
  {grammar : Grammar} {place : RulePath} {field : PatternField}

/-- What the variables of a document, as the loader revises them, make of a text. -/
def expansion (loader : GrammarLoader) (document : Document) (text : List Char) : List Char :=
  (VariableResolver.ofVariables (loader.revise document.variableTable).entries).expandChars text

/-- Where a document has a text, the resolved grammar has its expansion. -/
theorem hasField_of_resolve [MatcherEngine] (hresolve : loader.resolve document = .ok grammar)
    {text : List Char} (hfield : document.body.HasField place field (.ofList text)) :
    grammar.body.HasField place field (.ofList (loader.expansion document text)) := by
  obtain ⟨resolver, hresolver, rfl⟩ := resolve_eq_ok_iff.1 hresolve
  have hvisit : (⟨place, field, .ofList text⟩ : Visit) ∈ document.body.visits :=
    GrammarBody.mem_visits_iff.2 hfield
  have hrevised := List.mem_map_of_mem (f := Visit.revise fun _ text => resolver.expand text) hvisit
  have hexpand : resolver.expand (.ofList text) = .ofList (loader.expansion document text) := by
    rw [VariableResolver.expand, String.toList_ofList, expansion,
      VariableResolver.eq_ofVariables_of_ofTable hresolver]
  rw [← VariableResolver.visits_resolve, Visit.revise, hexpand] at hrevised
  exact GrammarBody.mem_visits_iff.1 hrevised

theorem revise_withOverrides {v : Variable} (hmem : v ∈ overrides.entries) (table : VariableTable) :
    (loader.withOverrides overrides).revise table = table.applyOverrides overrides := by
  have hsome : overrides.isEmpty = false := by
    cases h : overrides.entries with
    | nil => simp [h] at hmem
    | cons => simp [VariableTable.isEmpty, h]
  simp [withOverrides, hsome]

/-- A placeholder of a template field becomes the text of the variable that answers first. -/
theorem placeholder_of_firstAnswering [MatcherEngine] {v : Variable} {name : String}
    (hvs : HighlightGrammar.Templated (loader.revise document.variableTable).entries)
    (hresolve : loader.resolve document = .ok grammar)
    (hfirst : firstAnswering (loader.revise document.variableTable).entries name = some v)
    (hplain : IsName v.2.toList) {before found after : List Char} (hbefore : IsTemplate before)
    (hsame : SameName name.toList found)
    (hfield : document.body.HasField place field (.ofList (before ++ write found ++ after))) :
    grammar.body.HasField place field (.ofList
      (loader.expansion document before ++ v.2.toList ++ loader.expansion document after)) := by
  have hspelled : SameName name.toList (String.ofList found).toList := by
    rwa [String.toList_ofList]
  have hname : IsName found := by
    have hsame' : SameName v.1.toList name.toList := by simpa using List.find?_some hfirst
    exact (hsame'.trans hsame).isName (hvs v (List.mem_of_find?_eq_some hfirst)).1
  have hwritten := VariableResolver.expandChars_write hvs
    ((firstAnswering_congr hspelled).symm.trans hfirst) hplain
  rw [String.toList_ofList] at hwritten
  have htemplate : IsTemplate (write found) := by simpa using IsTemplate.placeholder hname .nil
  have hloaded := hasField_of_resolve hresolve hfield
  have hpieces : loader.expansion document (before ++ write found ++ after) =
      loader.expansion document before ++ v.2.toList ++ loader.expansion document after := by
    rw [expansion, VariableResolver.expandChars_append hvs (hbefore.append htemplate),
      VariableResolver.expandChars_append hvs hbefore, hwritten]
    rfl
  rwa [hpieces] at hloaded

/-- An override decides what its placeholders become unless another spelling of its name answers
first among the variables that the document declares; then that variable decides. -/
theorem placeholder_of_override [MatcherEngine] {name text : String}
    (htable : HighlightGrammar.Templated document.variableTable.entries)
    (hoverrides : HighlightGrammar.Templated overrides.entries)
    (hdiffer : Distinguished overrides.entries) (hmem : (name, text) ∈ overrides.entries)
    (hplain : IsName text.toList)
    (hresolve : (loader.withOverrides overrides).resolve document = .ok grammar)
    {before found after : List Char} (hbefore : IsTemplate before)
    (hsame : SameName name.toList found)
    (hfield : document.body.HasField place field (.ofList (before ++ write found ++ after))) :
    ((∀ v, firstAnswering document.variableTable.entries name = some v → v.1 = name) →
      grammar.body.HasField place field (.ofList
        ((loader.withOverrides overrides).expansion document before ++ text.toList ++
          (loader.withOverrides overrides).expansion document after))) ∧
    ∀ v, firstAnswering document.variableTable.entries name = some v → v.1 ≠ name →
      IsName v.2.toList → grammar.body.HasField place field (.ofList
        ((loader.withOverrides overrides).expansion document before ++ v.2.toList ++
          (loader.withOverrides overrides).expansion document after)) := by
  have hrevise : (loader.withOverrides overrides).revise document.variableTable = _ :=
    revise_withOverrides hmem document.variableTable
  have hfirst : firstAnswering (document.variableTable.applyOverrides overrides).entries name = _ :=
    VariableTable.firstAnswering_applyOverrides hdiffer hmem
  rw [← hrevise] at hfirst
  have hvs : HighlightGrammar.Templated
      ((loader.withOverrides overrides).revise document.variableTable).entries := by
    intro v hv
    rw [hrevise] at hv
    exact (VariableTable.mem_applyOverrides hv).elim (hoverrides v) (htable v)
  constructor
  · intro hspelled
    refine placeholder_of_firstAnswering (v := (name, text)) hvs hresolve ?_ hplain hbefore hsame
      hfield
    rw [hfirst]
    split
    · next v hv => rw [if_pos (hspelled v hv)]
    · rfl
  · intro v hv hne hplain'
    refine placeholder_of_firstAnswering hvs hresolve ?_ hplain' hbefore hsame hfield
    rw [hfirst, hv]
    exact if_neg hne

attribute [local instance] MatcherEngine.unlimited

/-- A variable and, in another letter case, its placeholder. -/
def identDocument : Document where
  body :=
    { attributes := []
      patterns := some [⟨.single "{{ident}}{{DIGIT}}*", [], none, none, [], []⟩]
      repository := none }
  variableTable := .ofList [("Ident", "[a-z]")]

def identOverrides : VariableTable := .ofList [("ident", "ID"), ("digit", "D")]

def identResolver : VariableResolver :=
  .ofVariables (identDocument.variableTable.applyOverrides identOverrides).entries

theorem resolve_identDocument : (plain.withOverrides identOverrides).resolve identDocument =
    .ok (identResolver.resolve identDocument.body) :=
  resolve_eq_ok_iff.2 ⟨_, VariableResolver.ofTable_unlimited _, rfl⟩

theorem hasField_identDocument :
    identDocument.body.HasField ⟨["patterns", "0"]⟩ .matchPattern "{{ident}}{{DIGIT}}*" := by
  have hvisit : (⟨⟨["patterns", "0"]⟩, .matchPattern, "{{ident}}{{DIGIT}}*"⟩ : Visit) ∈
      identDocument.body.visits := by decide +kernel
  exact GrammarBody.mem_visits_iff.1 hvisit

theorem placeholder_of_override_ident :
    (identResolver.resolve identDocument.body).body.HasField ⟨["patterns", "0"]⟩ .matchPattern
      "[a-z]D*" := by
  have hmem : ("digit", "D") ∈ identOverrides.entries := by decide +kernel
  have hbefore : IsTemplate "{{ident}}".toList := by decide +kernel
  have hsame : SameName "digit".toList "DIGIT".toList := by decide +kernel
  have hfield : identDocument.body.HasField ⟨["patterns", "0"]⟩ .matchPattern
      (.ofList ("{{ident}}".toList ++ write "DIGIT".toList ++ "*".toList)) := hasField_identDocument
  have hdigit := (placeholder_of_override (by decide +kernel) (by decide +kernel)
    (by decide +kernel) hmem (by decide +kernel) resolve_identDocument hbefore hsame hfield).1
      (by decide +kernel)
  exact hdigit

/-- An override is not heard when the document spells the name in another letter case. -/
theorem override_unheard : ¬ ∀ (document : Document) (overrides : VariableTable)
    (grammar : Grammar) (name text : String) (place : RulePath) (field : PatternField)
    (before found after : List Char),
    HighlightGrammar.Templated document.variableTable.entries →
    HighlightGrammar.Templated overrides.entries → Distinguished overrides.entries →
    (name, text) ∈ overrides.entries → IsName text.toList →
    (plain.withOverrides overrides).resolve document = .ok grammar →
    IsTemplate before → IsTemplate after → SameName name.toList found →
    document.body.HasField place field (.ofList (before ++ write found ++ after)) →
    grammar.body.HasField place field (.ofList
      ((plain.withOverrides overrides).expansion document before ++ text.toList ++
        (plain.withOverrides overrides).expansion document after)) := by
  intro h
  have hident := h identDocument identOverrides _ "ident" "ID" ⟨["patterns", "0"]⟩ .matchPattern
    [] "ident".toList "{{DIGIT}}*".toList (by decide +kernel) (by decide +kernel)
    (by decide +kernel) (by decide +kernel) (by decide +kernel) resolve_identDocument
    (by decide +kernel) (by decide +kernel) (by decide +kernel) hasField_identDocument
  have hvisits : (identResolver.resolve identDocument.body).body.visits =
      [⟨⟨["patterns", "0"]⟩, .matchPattern, "[a-z]D*"⟩] := by decide +kernel
  have hvisit : (⟨⟨["patterns", "0"]⟩, .matchPattern, "IDD*"⟩ : Visit) ∈
      (identResolver.resolve identDocument.body).body.visits := GrammarBody.mem_visits_iff.2 hident
  simp [hvisits] at hvisit

end GrammarLoader

end HighlightGrammar

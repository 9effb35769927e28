import HighlightGrammar.Proofs.Documents.Traversal
import HighlightGrammar.Proofs.Rules.Places
import HighlightGrammar.Proofs.Text.Lines
import HighlightGrammar.Proofs.Variables.Leftovers

/-!
# The placeholders that are reported

The report lists the placeholders of the revised texts in the order of the listing walk, each with
the path of its rule. A revised text stands where its original stands, so what is reported under a
path is told by the original texts there and the variables. A document has one text in a field at a
place. But the path of a place is a text in which a slash may also come from a name, so several
rules may be reported under one path unless their names are free of slashes. -/
namespace HighlightGrammar

open Placeholder

/-- A body has a text in a field of the rule at a place. -/
def GrammarBody.HasField (body : GrammarBody) (place : RulePath) (field : PatternField)
    (text : String) : Prop :=
  ∃ rule, body.toRule.At place.segments rule ∧ (field, text) ∈ rule.texts

/-- A body has a text in a field of a rule that is reported under a path. -/
def GrammarBody.ShowsField (body : GrammarBody) (path : String) (field : PatternField)
    (text : String) : Prop :=
  ∃ place, body.HasField place field text ∧ place.text = path

/-- No other rule that has the field is reported under the path of a place. -/
def GrammarBody.StandsAlone (body : GrammarBody) (place : RulePath) (field : PatternField) : Prop :=
  ∀ other text, body.HasField other field text → other.text = place.text → other = place

/-- No name on the way to a text holds a slash. -/
def GrammarBody.Slashless (body : GrammarBody) : Prop :=
  ∀ visit ∈ body.visits, ∀ segment ∈ visit.path.segments, '/' ∉ segment.toList

instance (body : GrammarBody) : Decidable body.Slashless :=
  inferInstanceAs (Decidable (∀ visit ∈ body.visits, ∀ segment ∈ visit.path.segments,
    '/' ∉ segment.toList))

/-- Places inside a document are told apart by their paths if no name holds a slash. -/
theorem RulePath.eq_of_text_eq {place other : RulePath} (hplace : place.segments ≠ [])
    (hother : other.segments ≠ []) (hfree : ∀ segment ∈ place.segments, '/' ∉ segment.toList)
    (hfree' : ∀ segment ∈ other.segments, '/' ∉ segment.toList) (h : other.text = place.text) :
    other = place := by
  rw [text_of_ne_root hother, text_of_ne_root hplace] at h
  exact congrArg RulePath.mk (eq_of_intercalate_eq rfl hother hplace hfree' hfree h)

namespace GrammarBody

theorem mem_visits_iff {body : GrammarBody} {visit : Visit} :
    visit ∈ body.visits ↔ body.HasField visit.path visit.field visit.text := by
  rw [← visits_toRule, Rule.mem_visits_iff]
  constructor
  · rintro ⟨place, rule, hat, hplace, hmem⟩
    rw [RulePath.segments_root, List.nil_append] at hplace
    exact ⟨rule, hplace ▸ hat, hmem⟩
  · rintro ⟨rule, hat, hmem⟩
    exact ⟨_, rule, hat, rfl, hmem⟩

theorem HasField.unique {body : GrammarBody} {place : RulePath} {field : PatternField}
    {text other : String} (hkeyed : body.toRule.KeyedThroughout)
    (h : body.HasField place field text) (h' : body.HasField place field other) : text = other := by
  obtain ⟨rule, hat, hmem⟩ := h
  obtain ⟨rule', hat', hmem'⟩ := h'
  obtain rfl := hat.unique hkeyed hat'
  exact Table.eq_of_mem (hkeyed _ _ hat).texts hmem hmem'

/-- A body has no text of its own. -/
theorem HasField.segments_ne_nil {body : GrammarBody} {place : RulePath} {field : PatternField}
    {text : String} (h : body.HasField place field text) : place.segments ≠ [] := by
  obtain ⟨rule, hat, hmem⟩ := h
  intro hroot
  rw [hroot] at hat
  cases hat
  cases hmem

theorem Slashless.standsAlone {body : GrammarBody} {place : RulePath} {field : PatternField}
    {text : String} (hfree : body.Slashless) (h : body.HasField place field text) :
    body.StandsAlone place field := by
  intro other text' h' hpath
  have hvisit : ⟨place, field, text⟩ ∈ body.visits := mem_visits_iff.2 h
  have hvisit' : ⟨other, field, text'⟩ ∈ body.visits := mem_visits_iff.2 h'
  exact RulePath.eq_of_text_eq h.segments_ne_nil h'.segments_ne_nil (hfree _ hvisit)
    (hfree _ hvisit') hpath

/-- Where a rule stands alone, its text is the only one that is reported under its path. -/
theorem StandsAlone.showsField_iff {body : GrammarBody} {place : RulePath} {field : PatternField}
    {text other : String} (hkeyed : body.toRule.KeyedThroughout)
    (halone : body.StandsAlone place field) (h : body.HasField place field text) :
    body.ShowsField place.text field other ↔ other = text := by
  constructor
  · rintro ⟨place', h', hpath⟩
    obtain rfl := halone place' other h' hpath
    exact h'.unique hkeyed h
  · rintro rfl
    exact ⟨place, h, rfl⟩

end GrammarBody

theorem Document.keyedThroughout_body {tree : Tree} {document : Document}
    (h : ofTree tree = .ok document) : document.body.toRule.KeyedThroughout := by
  obtain ⟨entries, -, hbody⟩ := body_of_ofTree h
  rw [hbody, ← GrammarBody.finish_toDraft, GrammarBody.toDraft_addSections]
  refine RuleDraft.keyedThroughout_finish_foldl fun entry hentry => ?_
  obtain ⟨e, -, rfl⟩ := List.mem_map.1 hentry
  exact RuleEntry.keyed_of_holds (RuleEntry.holds_ofSection e.1 e.2)
    fun inner _ => Rule.keyedThroughout_ofTree inner

/-- A placeholder is reported where a visited text holds it. -/
theorem Grammar.mem_unresolved_iff {grammar : Grammar} {p : UnresolvedPlaceholder} :
    p ∈ grammar.unresolved ↔ ∃ visit ∈ grammar.body.visits, visit.path.text = p.path ∧
      visit.field = p.field ∧ Occurs p.name.toList visit.text.toList := by
  rw [unresolved, List.mem_flatMap]
  constructor
  · rintro ⟨visit, hvisit, hmem⟩
    obtain ⟨name, hname, rfl⟩ := List.mem_map.1 hmem
    exact ⟨visit, hvisit, rfl, rfl, mem_names_iff.1 hname⟩
  · rintro ⟨visit, hvisit, hpath, hfield, hoccurs⟩
    refine ⟨visit, hvisit, List.mem_map.2 ⟨p.name, mem_names_iff.2 hoccurs, ?_⟩⟩
    rw [hpath, hfield]

theorem VariableResolver.visits_resolve (resolver : VariableResolver) (body : GrammarBody) :
    (resolver.resolve body).body.visits =
      body.visits.map (Visit.revise fun _ text => resolver.expand text) :=
  GrammarBody.visits_mapPatterns body

/-- A placeholder is reported where the expansion of a text holds it. -/
theorem VariableResolver.mem_unresolved_resolve_iff {resolver : VariableResolver}
    {body : GrammarBody} {p : UnresolvedPlaceholder} :
    p ∈ (resolver.resolve body).unresolved ↔ ∃ text, body.ShowsField p.path p.field text ∧
      Occurs p.name.toList (resolver.expand text).toList := by
  rw [Grammar.mem_unresolved_iff, visits_resolve]
  constructor
  · rintro ⟨revised, hrevised, hpath, hfield, hoccurs⟩
    obtain ⟨visit, hvisit, rfl⟩ := List.mem_map.1 hrevised
    rw [← hpath, ← hfield]
    exact ⟨visit.text, ⟨visit.path, GrammarBody.mem_visits_iff.1 hvisit, rfl⟩, hoccurs⟩
  · rintro ⟨text, ⟨place, hfield, hpath⟩, hoccurs⟩
    have hvisit : ⟨place, p.field, text⟩ ∈ body.visits := GrammarBody.mem_visits_iff.2 hfield
    exact ⟨_, List.mem_map_of_mem hvisit, hpath, rfl, hoccurs⟩

/-- The variables of a document are well formed and the texts of its rules are templates. -/
structure GrammarLoader.Templated (loader : GrammarLoader) (document : Document) : Prop where
  table : (loader.revise document.variableTable).WellFormed
  fields : ∀ place field text, document.body.HasField place field text → IsTemplate text.toList

/-- No text of a document reaches a name that stays. -/
def GrammarLoader.LeavesNothing (loader : GrammarLoader) (document : Document) : Prop :=
  ∀ place field text, document.body.HasField place field text →
    ∀ name, Reaches (loader.revise document.variableTable).entries text.toList name →
      ¬ Lasting (loader.revise document.variableTable).entries name

/-- A report lists placeholders of fields only. Under a path it lists for a field the undeclared
names that a text there reaches, spelled as they are there, and those declared names that such a
text reaches and that are the last declared ones of a cycle. -/
structure ReportsExactly (vs : List Variable) (body : GrammarBody)
    (reported : List UnresolvedPlaceholder) : Prop where
  placed : ∀ p ∈ reported, ∃ text, body.ShowsField p.path p.field text
  undeclared : ∀ path field, ∀ name : String, (∀ v ∈ vs, ¬ SameName v.1.toList name.toList) →
    (⟨path, field, name⟩ ∈ reported ↔
      ∃ text, body.ShowsField path field text ∧ Reaches vs text.toList name.toList)
  declared : ∀ path field, ∀ v ∈ vs,
    ((∃ name : String, SameName v.1.toList name.toList ∧ ⟨path, field, name⟩ ∈ reported) ↔
      ∃ text, body.ShowsField path field text ∧ ReachesVariable vs text.toList v ∧
        ClosesCycle vs v)

/-- What is reported for a field under a path is told by one text: it is the undeclared names that
this text reaches, and those declared names that it reaches and that are the last declared ones of a
cycle. -/
structure TellsText (vs : List Variable) (reported : List UnresolvedPlaceholder) (path : String)
    (field : PatternField) (text : String) : Prop where
  undeclared : ∀ name : String, (∀ v ∈ vs, ¬ SameName v.1.toList name.toList) →
    (⟨path, field, name⟩ ∈ reported ↔ Reaches vs text.toList name.toList)
  declared : ∀ v ∈ vs,
    ((∃ name : String, SameName v.1.toList name.toList ∧ ⟨path, field, name⟩ ∈ reported) ↔
      ReachesVariable vs text.toList v ∧ ClosesCycle vs v)

/-- A text that is the only one under a path tells what is reported there. -/
theorem ReportsExactly.tellsText {vs : List Variable} {body : GrammarBody}
    {reported : List UnresolvedPlaceholder} {path : String} {field : PatternField} {text : String}
    (h : ReportsExactly vs body reported)
    (honly : ∀ other, body.ShowsField path field other ↔ other = text) :
    TellsText vs reported path field text := by
  constructor
  · intro name hunknown
    rw [h.undeclared path field name hunknown]
    simp only [honly, exists_eq_left]
  · intro v hv
    rw [h.declared path field v hv]
    simp only [honly, exists_eq_left]

namespace GrammarLoader

variable {loader : GrammarLoader} {document : Document} {grammar : Grammar}

theorem templated_iff : loader.Templated document ↔
    (loader.revise document.variableTable).WellFormed ∧
      ∀ visit ∈ document.body.visits, IsTemplate visit.text.toList := by
  constructor
  · intro h
    exact ⟨h.table, fun visit hvisit => h.fields _ _ _ (GrammarBody.mem_visits_iff.1 hvisit)⟩
  · rintro ⟨htable, htexts⟩
    exact ⟨htable, fun place field text hfield =>
      htexts ⟨place, field, text⟩ (GrammarBody.mem_visits_iff.2 hfield)⟩

instance : Decidable (loader.Templated document) := decidable_of_iff' _ templated_iff

variable [MatcherEngine]

theorem mem_unresolved_iff (hresolve : loader.resolve document = .ok grammar)
    {p : UnresolvedPlaceholder} : p ∈ grammar.unresolved ↔
      ∃ text, document.body.ShowsField p.path p.field text ∧ Occurs p.name.toList
        ((VariableResolver.ofVariables (loader.revise document.variableTable).entries).expandChars
          text.toList) := by
  obtain ⟨resolver, hresolver, rfl⟩ := resolve_eq_ok_iff.1 hresolve
  rw [VariableResolver.mem_unresolved_resolve_iff,
    VariableResolver.eq_ofVariables_of_ofTable hresolver]
  simp only [VariableResolver.toList_expand]

/-- What is reported under a path comes from the texts there, whichever rules they belong to. -/
theorem reportsExactly_of_resolve (htemplated : loader.Templated document)
    (hresolve : loader.resolve document = .ok grammar) :
    ReportsExactly (loader.revise document.variableTable).entries document.body
      grammar.unresolved := by
  have hvs := htemplated.table.templated
  have hdiffer := htemplated.table.distinguished
  have htext : ∀ {path field text}, document.body.ShowsField path field text →
      IsTemplate text.toList := fun ⟨_, hfield, _⟩ => htemplated.fields _ _ _ hfield
  constructor
  · intro p hp
    obtain ⟨text, hshown, -⟩ := (mem_unresolved_iff hresolve).1 hp
    exact ⟨text, hshown⟩
  · intro path field name hunknown
    rw [mem_unresolved_iff hresolve]
    refine exists_congr fun text => and_congr_right fun hshown => ?_
    exact VariableResolver.occurs_expandChars_iff hvs hdiffer (htext hshown) hunknown
  · intro path field v hv
    have hmentions : ∀ text, document.body.ShowsField path field text →
        (Mentions ((VariableResolver.ofVariables
          (loader.revise document.variableTable).entries).expandChars text.toList) v ↔
            ReachesVariable (loader.revise document.variableTable).entries text.toList v ∧
              ClosesCycle (loader.revise document.variableTable).entries v) := fun text hshown =>
      VariableResolver.mentions_expandChars_iff_closesCycle hvs hdiffer (htext hshown) hv
    constructor
    · rintro ⟨name, hsame, hmem⟩
      obtain ⟨text, hshown, hoccurs⟩ := (mem_unresolved_iff hresolve).1 hmem
      exact ⟨text, hshown, (hmentions text hshown).1 ⟨name.toList, hoccurs, hsame⟩⟩
    · rintro ⟨text, hshown, hreached⟩
      obtain ⟨name, hoccurs, hsame⟩ := (hmentions text hshown).2 hreached
      refine ⟨String.ofList name, by rwa [String.toList_ofList], ?_⟩
      exact (mem_unresolved_iff hresolve).2 ⟨text, hshown, by rwa [String.toList_ofList]⟩

theorem unresolved_eq_nil_iff (htemplated : loader.Templated document)
    (hresolve : loader.resolve document = .ok grammar) :
    grammar.unresolved = [] ↔ loader.LeavesNothing document := by
  have hvs := htemplated.table.templated
  have hdiffer := htemplated.table.distinguished
  rw [List.eq_nil_iff_forall_not_mem]
  constructor
  · intro hnone place field text hfield name hreached hlasting
    obtain ⟨left, hleft⟩ := (VariableResolver.exists_occurs_expandChars_iff hvs hdiffer
      (htemplated.fields place field text hfield)).2 ⟨name, hreached, hlasting⟩
    refine hnone ⟨place.text, field, String.ofList left⟩ ((mem_unresolved_iff hresolve).2 ?_)
    exact ⟨text, ⟨place, hfield, rfl⟩, by rwa [String.toList_ofList]⟩
  · intro hnone p hp
    obtain ⟨text, ⟨place, hfield, -⟩, hoccurs⟩ := (mem_unresolved_iff hresolve).1 hp
    obtain ⟨name, hreached, hlasting⟩ := (VariableResolver.exists_occurs_expandChars_iff hvs hdiffer
      (htemplated.fields _ _ text hfield)).1 ⟨_, hoccurs⟩
    exact hnone _ _ text hfield name hreached hlasting

end GrammarLoader

end HighlightGrammar

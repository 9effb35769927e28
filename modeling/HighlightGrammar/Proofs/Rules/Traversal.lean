import HighlightGrammar.Proofs.Rules.Mapping

/-!
# The two walks over a rule

The walk that revises the texts of a rule and the walk that lists them go through the nested rules
in different orders. They still go to the same texts: the listing of a revised rule is the listing of
the rule with every text revised, and the revising walk asks for each listed text once. -/
namespace HighlightGrammar

/-- A visit to the same place after its text has been revised. -/
def Visit.revise (f : PatternField → String → String) (visit : Visit) : Visit :=
  { visit with text := f visit.field visit.text }

/-- What a revision is asked about at a visit. -/
def Visit.argument (visit : Visit) : PatternField × String := (visit.field, visit.text)

namespace Rule

variable {f : PatternField → String → String}

theorem visitTexts_mapTexts (path : RulePath) (texts : List (PatternField × String)) :
    visitTexts path (mapTexts f texts) = (visitTexts path texts).map (Visit.revise f) := by
  simp [visitTexts, mapTexts, Visit.revise]

theorem argument_visitTexts (path : RulePath) (texts : List (PatternField × String)) :
    (visitTexts path texts).map Visit.argument = texts := by
  simp [visitTexts, Visit.argument, Function.comp_def]

/-- Listing a revised rule is revising what is listed. -/
def VisitsRevised (f : PatternField → String → String) (rule : Rule) : Prop :=
  ∀ path, (rule.mapPatterns f).visits path = (rule.visits path).map (Visit.revise f)

theorem visitItems_map {rules : List Rule} (h : ∀ rule ∈ rules, VisitsRevised f rule)
    (path : RulePath) (start : Nat) : visitItems path start (rules.map (mapPatterns f)) =
      (visitItems path start rules).map (Visit.revise f) := by
  induction rules generalizing start with
  | nil => rfl
  | cons rule rules ih =>
    have hrule := h rule (by simp) (path.item start)
    have hrest := ih (fun r hr => h r (by simp [hr])) (start + 1)
    simp only [List.map_cons, visitItems, hrule, hrest, List.map_append]

theorem visitMap_mapPatterns {rules : RuleMap} (h : ∀ e ∈ rules, VisitsRevised f e.2)
    (path : RulePath) : visitMap path (rules.mapPatterns f) =
      (visitMap path rules).map (Visit.revise f) := by
  induction rules with
  | nil => rfl
  | cons e rules ih =>
    have hrule := h e (by simp) (path.child e.1)
    have hrest := ih fun e' he' => h e' (by simp [he'])
    rw [RuleMap.mapPatterns] at hrest
    simp only [RuleMap.mapPatterns, List.map_cons, visitMap, hrule, hrest, List.map_append]

theorem visitCaptures_map {captures : List (CaptureField × RuleMap)}
    (h : ∀ c ∈ captures, ∀ e ∈ c.2, VisitsRevised f e.2) (path : RulePath) :
    visitCaptures path (captures.map fun c => (c.1, RuleMap.mapPatterns f c.2)) =
      (visitCaptures path captures).map (Visit.revise f) := by
  induction captures with
  | nil => rfl
  | cons c captures ih =>
    have hrules := visitMap_mapPatterns (h c (by simp)) (path.child c.1.key)
    have hrest := ih fun c' hc' => h c' (by simp [hc'])
    simp only [List.map_cons, visitCaptures, hrules, hrest, List.map_append]

theorem visits_mapPatterns (rule : Rule) : VisitsRevised f rule := by
  induction rule using nestedInduction with
  | step rule ihpatterns ihrepository ihcaptures =>
    intro path
    have hpatterns : visitOptionalItems path (rule.patterns.map (List.map (mapPatterns f))) =
        (visitOptionalItems path rule.patterns).map (Visit.revise f) := by
      cases hrules : rule.patterns with
      | none => rfl
      | some rules => exact visitItems_map (ihpatterns rules hrules) _ _
    have hrepository : visitOptionalMap path (rule.repository.map (RuleMap.mapPatterns f)) =
        (visitOptionalMap path rule.repository).map (Visit.revise f) := by
      cases hrules : rule.repository with
      | none => rfl
      | some rules => exact visitMap_mapPatterns (ihrepository rules hrules) _
    have hcaptures := visitCaptures_map ihcaptures path
    rw [visits_eq, visits_eq, mapPatterns_eq]
    simp only [RuleKind.patterns_mapPatterns, visitTexts_mapTexts, hpatterns, hrepository,
      hcaptures, List.map_append]

end Rule

/-- Revises a text and notes what it was asked about. -/
def noting (f : PatternField → String → String) (field : PatternField) (text : String) :
    StateM (List (PatternField × String)) String := do
  modify fun noted => noted ++ [(field, text)]
  return f field text

/-- An action has a result and notes each of the arguments once, in some order. -/
def Notes {α : Type} (action : StateM (List (PatternField × String)) α) (result : α)
    (arguments : List (PatternField × String)) : Prop :=
  ∃ notes, notes.Perm arguments ∧ ∀ noted, action.run noted = (result, noted ++ notes)

namespace Notes

variable {α β : Type} {first : StateM (List (PatternField × String)) α}
  {next : α → StateM (List (PatternField × String)) β} {a : α} {b : β}
  {arguments more : List (PatternField × String)}

theorem pure (a : α) : Notes (Pure.pure a) a [] := by
  refine ⟨[], List.Perm.refl _, fun noted => ?_⟩
  rw [List.append_nil]
  rfl

theorem bind (hfirst : Notes first a arguments) (hnext : Notes (next a) b more) :
    Notes (first >>= next) b (arguments ++ more) := by
  obtain ⟨notes, hperm, hrun⟩ := hfirst
  obtain ⟨notes', hperm', hrun'⟩ := hnext
  refine ⟨notes ++ notes', hperm.append hperm', fun noted => ?_⟩
  rw [StateT.run_bind, hrun noted]
  exact (hrun' (noted ++ notes)).trans (by rw [List.append_assoc])

theorem map (hfirst : Notes first a arguments) (g : α → β) :
    Notes (do return g (← first)) (g a) arguments := by
  have hreturn : Notes (Pure.pure (g a) : StateM (List (PatternField × String)) β) (g a) [] :=
    Notes.pure (g a)
  have hboth : Notes (do return g (← first)) (g a) (arguments ++ []) := hfirst.bind hreturn
  rwa [List.append_nil] at hboth

theorem perm (h : Notes first a arguments) (hperm : arguments.Perm more) : Notes first a more := by
  obtain ⟨notes, hnotes, hrun⟩ := h
  exact ⟨notes, hnotes.trans hperm, hrun⟩

end Notes

theorem notes_noting (f : PatternField → String → String) (field : PatternField) (text : String) :
    Notes (noting f field text) (f field text) [(field, text)] :=
  ⟨_, List.Perm.refl _, fun _ => rfl⟩

namespace RuleKind

variable (f : PatternField → String → String)

theorem notes_mapOptionalM (field : PatternField) (text : Option String) :
    Notes (mapOptionalM field (noting f) text) (text.map (f field))
      (text.map fun text => (field, text)).toList := by
  cases text with
  | none => exact Notes.pure none
  | some text => exact (notes_noting f field text).map some

theorem notes_mapPatternsM (kind : RuleKind) :
    Notes (kind.mapPatternsM (noting f)) (kind.mapPatterns f) kind.patterns := by
  cases kind with
  | single pattern => exact (notes_noting f .matchPattern pattern).map single
  | region opening closing going =>
    have hopening := notes_noting f .beginPattern opening
    have hclosing := notes_mapOptionalM f .endPattern closing
    have hgoing := notes_mapOptionalM f .whilePattern going
    exact hopening.bind (hclosing.bind (hgoing.map _))
  | reference target => exact Notes.pure _
  | container => exact Notes.pure _
  | verbatim tree => exact Notes.pure _

end RuleKind

namespace Rule

variable {f : PatternField → String → String}

/-- The revising walk asks for every listed text of a rule once. -/
def NotesVisits (f : PatternField → String → String) (rule : Rule) : Prop :=
  ∀ path, Notes (rule.mapPatternsM (noting f)) (rule.mapPatterns f)
    ((rule.visits path).map Visit.argument)

theorem notes_mapExtraM (texts : List (PatternField × String)) :
    Notes (mapExtraM (noting f) texts) (mapTexts f texts) texts := by
  induction texts with
  | nil => exact Notes.pure _
  | cons e texts ih => exact (notes_noting f e.1 e.2).bind (ih.map _)

theorem notes_mapItemsM {rules : List Rule} (h : ∀ rule ∈ rules, NotesVisits f rule)
    (path : RulePath) (start : Nat) :
    Notes (mapItemsM (noting f) rules) (rules.map (mapPatterns f))
      ((visitItems path start rules).map Visit.argument) := by
  induction rules generalizing start with
  | nil => exact Notes.pure _
  | cons rule rules ih =>
    have hrule := h rule (by simp) (path.item start)
    have hrest := ih (fun r hr => h r (by simp [hr])) (start + 1)
    rw [visitItems, List.map_append]
    exact hrule.bind (hrest.map _)

theorem notes_mapNamedM {rules : RuleMap} (h : ∀ e ∈ rules, NotesVisits f e.2) (path : RulePath) :
    Notes (mapNamedM (noting f) rules) (rules.mapPatterns f)
      ((visitMap path rules).map Visit.argument) := by
  induction rules with
  | nil => exact Notes.pure _
  | cons e rules ih =>
    have hrule := h e (by simp) (path.child e.1)
    have hrest := ih fun e' he' => h e' (by simp [he'])
    rw [visitMap, List.map_append]
    exact hrule.bind (hrest.map _)

theorem notes_mapCapturesM {captures : List (CaptureField × RuleMap)}
    (h : ∀ c ∈ captures, ∀ e ∈ c.2, NotesVisits f e.2) (path : RulePath) :
    Notes (mapCapturesM (noting f) captures)
      (captures.map fun c => (c.1, RuleMap.mapPatterns f c.2))
      ((visitCaptures path captures).map Visit.argument) := by
  induction captures with
  | nil => exact Notes.pure _
  | cons c captures ih =>
    have hrules := notes_mapNamedM (h c (by simp)) (path.child c.1.key)
    have hrest := ih fun c' hc' => h c' (by simp [hc'])
    rw [visitCaptures, List.map_append]
    exact hrules.bind (hrest.map _)

theorem notes_mapOptionalItemsM {rules : Option (List Rule)}
    (h : ∀ inner, rules = some inner → ∀ rule ∈ inner, NotesVisits f rule) (path : RulePath) :
    Notes (mapOptionalItemsM (noting f) rules) (rules.map (List.map (mapPatterns f)))
      ((visitOptionalItems path rules).map Visit.argument) := by
  cases rules with
  | none => exact Notes.pure _
  | some rules => exact (notes_mapItemsM (h rules rfl) (path.child "patterns") 0).map some

theorem notes_mapOptionalNamedM {rules : Option RuleMap}
    (h : ∀ inner, rules = some inner → ∀ e ∈ inner, NotesVisits f e.2) (path : RulePath) :
    Notes (mapOptionalNamedM (noting f) rules) (rules.map (RuleMap.mapPatterns f))
      ((visitOptionalMap path rules).map Visit.argument) := by
  cases rules with
  | none => exact Notes.pure _
  | some rules => exact (notes_mapNamedM (h rules rfl) (path.child "repository")).map some

theorem notes_mapPatternsM (rule : Rule) : NotesVisits f rule := by
  induction rule using nestedInduction with
  | step rule ihpatterns ihrepository ihcaptures =>
    intro path
    have hkind := RuleKind.notes_mapPatternsM f rule.kind
    have hextra := notes_mapExtraM (f := f) rule.extra
    have hpatterns := notes_mapOptionalItemsM ihpatterns path
    have hrepository := notes_mapOptionalNamedM ihrepository path
    have hcaptures := notes_mapCapturesM ihcaptures path
    rw [mapPatterns_eq, visits_eq]
    obtain ⟨kind, extra, patterns, repository, captures, attributes⟩ := rule
    have hwalk : Notes (mapPatternsM (noting f) ⟨kind, extra, patterns, repository, captures,
        attributes⟩) _ _ :=
      hkind.bind (hextra.bind (hpatterns.bind (hrepository.bind (hcaptures.map _))))
    refine hwalk.perm ?_
    simp only [List.map_append, argument_visitTexts, List.append_assoc]
    -- The groups come last in the revising walk and third in the listing.
    refine ((List.Perm.refl _).append ((List.Perm.refl _).append ?_))
    rw [← List.append_assoc]
    exact List.perm_append_comm

end Rule

/-- A kind with its patterns left blank. -/
def RuleKind.outline : RuleKind → RuleKind
  | single _ => single ""
  | region _ closing going => region "" (closing.map fun _ => "") (going.map fun _ => "")
  | reference target => reference target
  | container => container
  | verbatim tree => verbatim tree

namespace Rule

mutual

/-- A rule with its pattern texts left blank, here and in all nested rules. -/
def outline : Rule → Rule
  | ⟨kind, extra, patterns, repository, captures, attributes⟩ =>
    ⟨kind.outline, extra.map fun e => (e.1, ""), outlineOptionalItems patterns,
      outlineOptionalMap repository, outlineCaptures captures, attributes⟩
termination_by structural rule => rule

def outlineOptionalItems : Option (List Rule) → Option (List Rule)
  | none => none
  | some rules => some (outlineItems rules)
termination_by structural rules => rules

def outlineOptionalMap : Option (List (String × Rule)) → Option (List (String × Rule))
  | none => none
  | some rules => some (outlineMap rules)
termination_by structural rules => rules

def outlineItems : List Rule → List Rule
  | [] => []
  | rule :: rules => outline rule :: outlineItems rules
termination_by structural rules => rules

def outlineMap : List (String × Rule) → List (String × Rule)
  | [] => []
  | (name, rule) :: rules => (name, outline rule) :: outlineMap rules
termination_by structural rules => rules

def outlineCaptures :
    List (CaptureField × List (String × Rule)) → List (CaptureField × List (String × Rule))
  | [] => []
  | (field, rules) :: rest => (field, outlineMap rules) :: outlineCaptures rest
termination_by structural captures => captures

end

variable {f : PatternField → String → String}

theorem outlineItems_map {rules : List Rule}
    (h : ∀ rule ∈ rules, (rule.mapPatterns f).outline = rule.outline) :
    outlineItems (rules.map (mapPatterns f)) = outlineItems rules := by
  induction rules with
  | nil => rfl
  | cons rule rules ih =>
    have hrest := ih fun r hr => h r (by simp [hr])
    rw [List.map_cons, outlineItems, outlineItems, h rule (by simp), hrest]

theorem outlineMap_mapPatterns {rules : RuleMap}
    (h : ∀ e ∈ rules, (e.2.mapPatterns f).outline = e.2.outline) :
    outlineMap (rules.mapPatterns f) = outlineMap rules := by
  induction rules with
  | nil => rfl
  | cons e rules ih =>
    have hrest := ih fun e' he' => h e' (by simp [he'])
    rw [RuleMap.mapPatterns] at hrest
    rw [RuleMap.mapPatterns, List.map_cons, outlineMap, outlineMap, h e (by simp), hrest]

theorem outlineCaptures_map {captures : List (CaptureField × RuleMap)}
    (h : ∀ c ∈ captures, ∀ e ∈ c.2, (e.2.mapPatterns f).outline = e.2.outline) :
    outlineCaptures (captures.map fun c => (c.1, RuleMap.mapPatterns f c.2)) =
      outlineCaptures captures := by
  induction captures with
  | nil => rfl
  | cons c captures ih =>
    have hrest := ih fun c' hc' => h c' (by simp [hc'])
    rw [List.map_cons, outlineCaptures, outlineCaptures, outlineMap_mapPatterns (h c (by simp)),
      hrest]

theorem outline_eq (rule : Rule) : rule.outline =
    ⟨rule.kind.outline, rule.extra.map fun e => (e.1, ""), outlineOptionalItems rule.patterns,
      outlineOptionalMap rule.repository, outlineCaptures rule.captures, rule.attributes⟩ := by
  cases rule
  rfl

/-- Revising the texts of a rule keeps everything else, and everything in its place. -/
theorem outline_mapPatterns (rule : Rule) : (rule.mapPatterns f).outline = rule.outline := by
  induction rule using nestedInduction with
  | step rule ihpatterns ihrepository ihcaptures =>
    have hkind : (rule.kind.mapPatterns f).outline = rule.kind.outline := by
      cases rule.kind with
      | region opening closing going => cases closing <;> cases going <;> rfl
      | _ => rfl
    have hextra : (mapTexts f rule.extra).map (fun e => (e.1, "")) =
        rule.extra.map fun e => (e.1, "") := by
      simp [mapTexts]
    have hpatterns : outlineOptionalItems (rule.patterns.map (List.map (mapPatterns f))) =
        outlineOptionalItems rule.patterns := by
      cases hrules : rule.patterns with
      | none => rfl
      | some rules => exact congrArg some (outlineItems_map (ihpatterns rules hrules))
    have hrepository : outlineOptionalMap (rule.repository.map (RuleMap.mapPatterns f)) =
        outlineOptionalMap rule.repository := by
      cases hrules : rule.repository with
      | none => rfl
      | some rules => exact congrArg some (outlineMap_mapPatterns (ihrepository rules hrules))
    have hcaptures := outlineCaptures_map ihcaptures
    rw [outline_eq, outline_eq, mapPatterns_eq]
    simp only [hkind, hextra, hpatterns, hrepository, hcaptures]

end Rule

end HighlightGrammar

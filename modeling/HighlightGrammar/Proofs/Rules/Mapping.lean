import HighlightGrammar.Grammar.Body

/-!
# Revising without effects

A revision by a plain function needs no order: every text of a rule is revised in its place, and
everything else of the rule stays. Two revisions that agree on the visited texts are one. -/
namespace HighlightGrammar

/-- Revises the rules of a map by a plain function. -/
def RuleMap.mapPatterns (f : PatternField → String → String) (rules : RuleMap) : RuleMap :=
  rules.map fun e => (e.1, e.2.mapPatterns f)

def RuleKind.mapPatterns (f : PatternField → String → String) : RuleKind → RuleKind
  | single pattern => single (f .matchPattern pattern)
  | region opening closing going =>
    region (f .beginPattern opening) (closing.map (f .endPattern)) (going.map (f .whilePattern))
  | reference target => reference target
  | container => container
  | verbatim tree => verbatim tree

def mapTexts (f : PatternField → String → String) (texts : List (PatternField × String)) :
    List (PatternField × String) := texts.map fun e => (e.1, f e.1 e.2)

namespace RuleKind

variable (f : PatternField → String → String)

theorem run_mapPatternsM (kind : RuleKind) :
    Id.run (kind.mapPatternsM fun field text => pure (f field text)) = kind.mapPatterns f := by
  cases kind with
  | region opening closing going => cases closing <;> cases going <;> rfl
  | _ => rfl

theorem patterns_mapPatterns (kind : RuleKind) :
    (kind.mapPatterns f).patterns = mapTexts f kind.patterns := by
  cases kind with
  | region opening closing going => cases closing <;> cases going <;> rfl
  | _ => rfl

end RuleKind

namespace Rule

variable (f : PatternField → String → String)

theorem run_mapExtraM (texts : List (PatternField × String)) :
    Id.run (mapExtraM (fun field text => pure (f field text)) texts) = mapTexts f texts := by
  induction texts with
  | nil => rfl
  | cons e texts ih => exact congrArg (List.cons _) ih

theorem run_mapItemsM (rules : List Rule) :
    Id.run (mapItemsM (fun field text => pure (f field text)) rules) =
      rules.map (mapPatterns f) := by
  induction rules with
  | nil => rfl
  | cons rule rules ih => exact congrArg (List.cons _) ih

theorem run_mapNamedM (rules : RuleMap) :
    Id.run (mapNamedM (fun field text => pure (f field text)) rules) = rules.mapPatterns f := by
  induction rules with
  | nil => rfl
  | cons e rules ih => exact congrArg (List.cons _) ih

theorem run_mapOptionalItemsM (rules : Option (List Rule)) :
    Id.run (mapOptionalItemsM (fun field text => pure (f field text)) rules) =
      rules.map (List.map (mapPatterns f)) := by
  cases rules with
  | none => rfl
  | some rules => exact congrArg some (run_mapItemsM f rules)

theorem run_mapOptionalNamedM (rules : Option RuleMap) :
    Id.run (mapOptionalNamedM (fun field text => pure (f field text)) rules) =
      rules.map (RuleMap.mapPatterns f) := by
  cases rules with
  | none => rfl
  | some rules => exact congrArg some (run_mapNamedM f rules)

theorem run_mapCapturesM (captures : List (CaptureField × RuleMap)) :
    Id.run (mapCapturesM (fun field text => pure (f field text)) captures) =
      captures.map fun e => (e.1, RuleMap.mapPatterns f e.2) := by
  induction captures with
  | nil => rfl
  | cons e captures ih =>
    obtain ⟨field, rules⟩ := e
    rw [List.map_cons, ← run_mapNamedM, ← ih]
    rfl

theorem mapPatterns_eq (rule : Rule) : rule.mapPatterns f =
    { kind := rule.kind.mapPatterns f
      extra := mapTexts f rule.extra
      patterns := rule.patterns.map (List.map (mapPatterns f))
      repository := rule.repository.map (RuleMap.mapPatterns f)
      captures := rule.captures.map fun e => (e.1, RuleMap.mapPatterns f e.2)
      attributes := rule.attributes } := by
  obtain ⟨kind, extra, patterns, repository, captures, attributes⟩ := rule
  rw [← RuleKind.run_mapPatternsM, ← run_mapExtraM, ← run_mapOptionalItemsM,
    ← run_mapOptionalNamedM, ← run_mapCapturesM]
  rfl

variable {f}

/-- A property of rules that passes from the nested rules to the rule holds for all rules. -/
@[elab_as_elim]
theorem nestedInduction {P : Rule → Prop}
    (step : ∀ rule : Rule, (∀ rules, rule.patterns = some rules → ∀ r ∈ rules, P r) →
      (∀ rules, rule.repository = some rules → ∀ e ∈ rules, P e.2) →
      (∀ c ∈ rule.captures, ∀ e ∈ c.2, P e.2) → P rule) (rule : Rule) : P rule := by
  induction hn : sizeOf rule using Nat.strongRecOn generalizing rule with
  | ind n ih =>
    obtain ⟨kind, extra, patterns, repository, captures, attributes⟩ := rule
    simp only [Rule.mk.sizeOf_spec] at hn
    refine step _ ?_ ?_ ?_
    · rintro rules rfl r hr
      have hlt := List.sizeOf_lt_of_mem hr
      simp only [Option.some.sizeOf_spec] at hn
      exact ih (sizeOf r) (by omega) r rfl
    · rintro rules rfl ⟨name, r⟩ hr
      have hlt := List.sizeOf_lt_of_mem hr
      simp only [Option.some.sizeOf_spec, Prod.mk.sizeOf_spec] at hn hlt
      exact ih (sizeOf r) (by omega) r rfl
    · rintro ⟨field, rules⟩ hc ⟨name, r⟩ hr
      have hlt := List.sizeOf_lt_of_mem hr
      have hlt' := List.sizeOf_lt_of_mem hc
      simp only [Prod.mk.sizeOf_spec] at hlt hlt'
      exact ih (sizeOf r) (by omega) r rfl

variable (f) in
/-- Two revisions are one by the composed function. -/
theorem mapPatterns_mapPatterns (g : PatternField → String → String) (rule : Rule) :
    (rule.mapPatterns f).mapPatterns g =
      rule.mapPatterns fun field text => g field (f field text) := by
  induction rule using nestedInduction with
  | step rule ihpatterns ihrepository ihcaptures =>
    have hkind : (rule.kind.mapPatterns f).mapPatterns g =
        rule.kind.mapPatterns fun field text => g field (f field text) := by
      cases rule.kind <;> simp [RuleKind.mapPatterns, Function.comp_def]
    have hnamed : ∀ rules : RuleMap, (∀ e ∈ rules, (e.2.mapPatterns f).mapPatterns g =
        e.2.mapPatterns fun field text => g field (f field text)) →
        RuleMap.mapPatterns g (rules.mapPatterns f) =
          rules.mapPatterns fun field text => g field (f field text) := by
      intro rules ih
      rw [RuleMap.mapPatterns, RuleMap.mapPatterns, RuleMap.mapPatterns, List.map_map]
      exact List.map_congr_left fun e he => congrArg (Prod.mk e.1) (ih e he)
    have hpatterns : (rule.patterns.map (List.map (mapPatterns f))).map (List.map (mapPatterns g)) =
        rule.patterns.map (List.map (mapPatterns fun field text => g field (f field text))) := by
      cases hrules : rule.patterns with
      | none => rfl
      | some rules =>
        simp only [Option.map_some, List.map_map]
        exact congrArg some (List.map_congr_left (ihpatterns rules hrules))
    have hrepository : (rule.repository.map (RuleMap.mapPatterns f)).map (RuleMap.mapPatterns g) =
        rule.repository.map (RuleMap.mapPatterns fun field text => g field (f field text)) := by
      cases hrules : rule.repository with
      | none => rfl
      | some rules => exact congrArg some (hnamed rules (ihrepository rules hrules))
    rw [mapPatterns_eq f, mapPatterns_eq g, mapPatterns_eq, hkind, hpatterns, hrepository]
    simp only [mapTexts, List.map_map, Function.comp_def]
    congr 1
    exact List.map_congr_left fun c hc => congrArg (Prod.mk c.1) (hnamed c.2 (ihcaptures c hc))

theorem mapTexts_id (texts : List (PatternField × String)) :
    mapTexts (fun _ text => text) texts = texts := List.map_id' texts

/-- A revision that changes no text changes no rule. -/
theorem mapPatterns_id (rule : Rule) : rule.mapPatterns (fun _ text => text) = rule := by
  induction rule using nestedInduction with
  | step rule ihpatterns ihrepository ihcaptures =>
    have hkind : rule.kind.mapPatterns (fun _ text => text) = rule.kind := by
      cases rule.kind <;> simp [RuleKind.mapPatterns]
    have hnamed : ∀ rules : RuleMap, (∀ e ∈ rules, e.2.mapPatterns (fun _ text => text) = e.2) →
        rules.mapPatterns (fun _ text => text) = rules := fun rules ih =>
      (List.map_congr_left fun e he => congrArg (Prod.mk e.1) (ih e he)).trans (List.map_id' _)
    have hpatterns : rule.patterns.map (List.map (mapPatterns fun _ text => text)) =
        rule.patterns := by
      cases hrules : rule.patterns with
      | none => rfl
      | some rules =>
        exact congrArg some ((List.map_congr_left (ihpatterns rules hrules)).trans (List.map_id' _))
    have hrepository : rule.repository.map (RuleMap.mapPatterns fun _ text => text) =
        rule.repository := by
      cases hrules : rule.repository with
      | none => rfl
      | some rules => exact congrArg some (hnamed rules (ihrepository rules hrules))
    have hcaptures : rule.captures.map (fun c =>
        (c.1, RuleMap.mapPatterns (fun _ text => text) c.2)) = rule.captures :=
      (List.map_congr_left fun c hc => congrArg (Prod.mk c.1) (hnamed c.2 (ihcaptures c hc))).trans
        (List.map_id' _)
    rw [mapPatterns_eq, hkind, mapTexts_id, hpatterns, hrepository, hcaptures]
    cases rule
    rfl

theorem visits_eq (path : RulePath) (rule : Rule) : rule.visits path =
    visitTexts path rule.kind.patterns ++ visitTexts path rule.extra ++
      visitCaptures path rule.captures ++ visitOptionalItems path rule.patterns ++
      visitOptionalMap path rule.repository := by
  cases rule
  rfl

def AgreeOn (f g : PatternField → String → String) (visits : List Visit) : Prop :=
  ∀ visit ∈ visits, f visit.field visit.text = g visit.field visit.text

variable {g : PatternField → String → String}

theorem AgreeOn.left {xs ys : List Visit} (h : AgreeOn f g (xs ++ ys)) : AgreeOn f g xs :=
  fun visit hvisit => h visit (List.mem_append_left _ hvisit)

theorem AgreeOn.right {xs ys : List Visit} (h : AgreeOn f g (xs ++ ys)) : AgreeOn f g ys :=
  fun visit hvisit => h visit (List.mem_append_right _ hvisit)

theorem mapTexts_congr {path : RulePath} {texts : List (PatternField × String)}
    (h : AgreeOn f g (visitTexts path texts)) : mapTexts f texts = mapTexts g texts := by
  refine List.map_congr_left fun e he => ?_
  have hvisit : f e.1 e.2 = g e.1 e.2 := h ⟨path, e.1, e.2⟩ (List.mem_map_of_mem he)
  rw [hvisit]

theorem kind_mapPatterns_congr {path : RulePath} {kind : RuleKind}
    (h : AgreeOn f g (visitTexts path kind.patterns)) :
    kind.mapPatterns f = kind.mapPatterns g := by
  have htexts := mapTexts_congr h
  cases kind with
  | region opening closing going =>
    cases closing <;> cases going <;>
      simp_all [mapTexts, RuleKind.patterns, RuleKind.mapPatterns]
  | single pattern => simpa [mapTexts, RuleKind.patterns, RuleKind.mapPatterns] using htexts
  | reference => rfl
  | container => rfl
  | verbatim => rfl

/-- What a rule becomes is told by what becomes of its visited texts. -/
def Congruent (f g : PatternField → String → String) (rule : Rule) : Prop :=
  ∀ path, AgreeOn f g (rule.visits path) → rule.mapPatterns f = rule.mapPatterns g

theorem mapItems_congr {rules : List Rule} (ih : ∀ rule ∈ rules, Congruent f g rule)
    {path : RulePath} {start : Nat} (h : AgreeOn f g (visitItems path start rules)) :
    rules.map (mapPatterns f) = rules.map (mapPatterns g) := by
  induction rules generalizing start with
  | nil => rfl
  | cons rule rules ihrules =>
    rw [List.map_cons, List.map_cons, ih rule (by simp) _ h.left,
      ihrules (fun r hr => ih r (by simp [hr])) h.right]

theorem mapNamed_congr {rules : RuleMap} (ih : ∀ e ∈ rules, Congruent f g e.2) {path : RulePath}
    (h : AgreeOn f g (visitMap path rules)) : rules.mapPatterns f = rules.mapPatterns g := by
  induction rules with
  | nil => rfl
  | cons e rules ihrules =>
    rw [RuleMap.mapPatterns, RuleMap.mapPatterns, List.map_cons, List.map_cons,
      ih e (by simp) _ h.left]
    exact congrArg (List.cons _) (ihrules (fun r hr => ih r (by simp [hr])) h.right)

theorem mapCaptures_congr {captures : List (CaptureField × RuleMap)}
    (ih : ∀ c ∈ captures, ∀ e ∈ c.2, Congruent f g e.2) {path : RulePath}
    (h : AgreeOn f g (visitCaptures path captures)) :
    (captures.map fun c => (c.1, RuleMap.mapPatterns f c.2)) =
      captures.map fun c => (c.1, RuleMap.mapPatterns g c.2) := by
  induction captures with
  | nil => rfl
  | cons c captures ihcaptures =>
    rw [List.map_cons, List.map_cons, mapNamed_congr (ih c (by simp)) h.left,
      ihcaptures (fun d hd => ih d (by simp [hd])) h.right]

theorem mapPatterns_congr (rule : Rule) : Congruent f g rule := by
  induction rule using nestedInduction with
  | step rule ihpatterns ihrepository ihcaptures =>
    intro path h
    rw [visits_eq] at h
    have hpatterns : rule.patterns.map (List.map (mapPatterns f)) =
        rule.patterns.map (List.map (mapPatterns g)) := by
      cases hrules : rule.patterns with
      | none => rfl
      | some rules =>
        have hvisits := h.left.right
        rw [hrules] at hvisits
        exact congrArg some (mapItems_congr (ihpatterns rules hrules) hvisits)
    have hrepository : rule.repository.map (RuleMap.mapPatterns f) =
        rule.repository.map (RuleMap.mapPatterns g) := by
      cases hrules : rule.repository with
      | none => rfl
      | some rules =>
        have hvisits := h.right
        rw [hrules] at hvisits
        exact congrArg some (mapNamed_congr (ihrepository rules hrules) hvisits)
    rw [mapPatterns_eq, mapPatterns_eq, kind_mapPatterns_congr h.left.left.left.left,
      mapTexts_congr h.left.left.left.right, hpatterns, hrepository,
      mapCaptures_congr ihcaptures h.left.left.right]

end Rule

end HighlightGrammar

import HighlightGrammar.Proofs.Baseline.SuiteRuns

/-!
# One case after the other

The cases may also be run one after the other. This is one of the orders in which they may take
turns, so what is known of all orders holds of it. -/
namespace HighlightGrammar

open FileSystem

variable {τ σ : Type} {files : FileSystem} (registry : GrammarRegistry σ) (layout : BaselineLayout)

namespace BaselineLayout

theorem mirrors_casesOf (kind : Kind) :
    Script.Mirrors (layout.casesOf kind : ExceptT BaselineError (Script τ) (List Path)).run
      (layout.casesOf kind : ExceptT BaselineError (StateM FileSystem) (List Path)).run := by
  refine (Script.mirrors_isFolder _).lift.run_bind fun there => ?_
  cases there with
  | false => exact Script.mirrors_pure _
  | true =>
    exact ((Script.mirrors_names _).adapt _).run_bind fun names =>
      Script.mirrors_filterM (fun path => (Script.mirrors_isFile path).lift) _

theorem mirrors_check (kind : Kind) (file generated : String) :
    Script.Mirrors (layout.check kind file generated : ExceptT BaselineError (Script τ) Unit).run
      (layout.check kind file generated : ExceptT BaselineError (StateM FileSystem) Unit).run := by
  refine ((Script.mirrors_writeText _ _).adapt _).run_bind fun _ => ?_
  refine (Script.mirrors_isThere _).lift.run_bind fun there => ?_
  cases there with
  | false => exact Script.mirrors_throw _
  | true =>
    refine ((Script.mirrors_readText _).adapt _).run_bind fun approved => ?_
    split
    · exact Script.mirrors_pure _
    · exact Script.mirrors_throw _

end BaselineLayout

theorem GrammarRegistry.mirrors_runCase (kind : Kind) (case : Path) :
    Script.Mirrors (registry.runCase layout kind case : Script τ CaseOutcome)
      (registry.runCase layout kind case) := by
  have hcheck : Script.Mirrors
      (registry.checkCase layout kind case : ExceptT BaselineError (Script τ) Unit).run
      (registry.checkCase layout kind case : ExceptT BaselineError (StateM FileSystem) Unit).run := by
    refine ((Script.mirrors_readText _).adapt _).run_bind fun text => ?_
    refine Script.Mirrors.run_bind (Script.mirrors_pure _) fun report => ?_
    exact layout.mirrors_check kind _ _
  exact hcheck.bind fun result => Script.mirrors_pure _

theorem run_mapM_lift {α β ε : Type} (f : α → StateM FileSystem β) (items : List α)
    (files : FileSystem) :
    (items.mapM fun a => (ExceptT.lift (f a) : ExceptT ε (StateM FileSystem) β)).run.run files =
      (.ok ((items.mapM f).run files).1, ((items.mapM f).run files).2) := by
  induction items generalizing files with
  | nil => rfl
  | cons a items ih =>
    rw [run_mapM_cons, List.mapM_cons, run_bind, run_lift]
    simp only [run_bind, ih]
    rfl

/-- The cases of several kinds. -/
def BaselineLayout.listCases (layout : BaselineLayout) (kinds : List Kind) :
    ExceptT BaselineError (StateM FileSystem) (List (List (Kind × Path))) :=
  kinds.mapM fun kind => do return (← layout.casesOf kind).map fun case => (kind, case)

theorem BaselineLayout.run_listCases_cons (kind : Kind) (kinds : List Kind) (files : FileSystem) :
    (layout.listCases (kind :: kinds)).run.run files =
      match (layout.casesOf kind : ExceptT BaselineError (StateM FileSystem) (List Path)).run.run
        files with
      | (.error error, between) => (.error error, between)
      | (.ok cases, between) =>
        (((layout.listCases kinds).run.run between).1.map ((cases.map (kind, ·)) :: ·),
          ((layout.listCases kinds).run.run between).2) := by
  rw [listCases, List.mapM_cons, ← listCases, run_bind, run_bind]
  rcases (layout.casesOf kind : ExceptT BaselineError (StateM FileSystem) (List Path)).run.run
    files with ⟨error | cases, between⟩
  · rfl
  · have hpure : (pure (cases.map (kind, ·)) : ExceptT BaselineError (StateM FileSystem) _).run.run
        between = (.ok (cases.map (kind, ·)), between) := rfl
    simp only [hpure, run_bind]
    rcases (layout.listCases kinds).run.run between with ⟨error | rest, after⟩ <;> rfl

/-- What a run comes to that takes one case after the other. -/
def GrammarRegistry.runAlone (registry : GrammarRegistry σ) (layout : BaselineLayout)
    (files : FileSystem) : Except BaselineError SuiteSummary × FileSystem :=
  (registry.runSuite layout : ExceptT BaselineError (StateM FileSystem) SuiteSummary).run.run files

namespace SuiteRun

theorem comesTo_start (kind : Kind) (cases : List Path) (files : FileSystem) :
    Script.ComesTo (cases.forM fun case => ExceptT.lift (Script.start (kind, case)) :
      ExceptT BaselineError (Script (Kind × Path)) Unit).run files (.ok ()) files
        (cases.map fun case => (kind, case)) := by
  induction cases with
  | nil => exact .done
  | cons case cases ih => exact .start ih

/-- While the cases of several kinds are looked for they are started. -/
theorem comesTo_startKinds (kinds : List Kind) (files : FileSystem) : ∃ started,
    Script.ComesTo (kinds.forM fun kind => do
        let cases ← layout.casesOf kind
        cases.forM fun case => ExceptT.lift (Script.start (kind, case)) :
          ExceptT BaselineError (Script (Kind × Path)) Unit).run files
      (((layout.listCases kinds).run.run files).1.map fun _ => ())
      ((layout.listCases kinds).run.run files).2 started ∧
    ∀ cases, ((layout.listCases kinds).run.run files).1 = .ok cases → started = cases.flatten := by
  induction kinds generalizing files with
  | nil => exact ⟨[], .done, fun cases hcases => by cases hcases; rfl⟩
  | cons kind kinds ih =>
    have hfound := layout.mirrors_casesOf (τ := Kind × Path) kind files
    rw [BaselineLayout.run_listCases_cons]
    generalize (layout.casesOf kind : ExceptT BaselineError (StateM FileSystem)
      (List Path)).run.run files = outcome at hfound ⊢
    obtain ⟨error | cases, between⟩ := outcome
    · exact ⟨[], hfound.run_bind_error.run_bind_error, nofun⟩
    · obtain ⟨started, hrest, hflatten⟩ := ih between
      have hkind : Script.ComesTo (layout.casesOf kind >>= fun cases =>
          cases.forM fun case => ExceptT.lift (Script.start (kind, case)) :
            ExceptT BaselineError (Script (Kind × Path)) Unit).run files (.ok ()) between _ :=
        hfound.run_bind (comesTo_start kind cases between)
      dsimp only
      generalize (layout.listCases kinds).run.run between = others at hrest hflatten ⊢
      refine ⟨cases.map (fun case => (kind, case)) ++ started,
        hkind.run_bind (k := fun _ => kinds.forM _) ?_, ?_⟩
      · obtain ⟨error | rest, after⟩ := others <;> exact hrest
      · obtain ⟨error | rest, after⟩ := others
        · exact nofun
        · intro cases' hcases
          cases hcases
          rw [hflatten rest rfl]
          rfl

/-- Running the cases one after the other is one of the ways in which a run may go. -/
theorem reaches_runAlone (files : FileSystem) : ∃ last : SuiteRun,
    Relation.ReflTransGen (Step registry layout) (begin layout files) last ∧
    summary? last = some (registry.runAlone layout files).1 ∧
    last.files = (registry.runAlone layout files).2 := by
  have hprepare := layout.mirrors_prepareGenerated (τ := Kind × Path) files
  rw [GrammarRegistry.runAlone, GrammarRegistry.runSuite, run_bind]
  generalize (layout.prepareGenerated : ExceptT BaselineError (StateM FileSystem) Unit).run.run
    files = prepared at hprepare ⊢
  obtain ⟨error | ⟨⟩, prepared⟩ := prepared
  · exact ⟨_, TaskPool.reaches_of_comesTo hprepare.run_bind_error [] [], rfl, rfl⟩
  obtain ⟨started, hstarts, hflatten⟩ := comesTo_startKinds layout Kind.all prepared
  have hmain := hprepare.run_bind (k := fun _ => Kind.all.forM _) hstarts
  dsimp only
  rw [run_bind, ← BaselineLayout.listCases]
  generalize (layout.listCases Kind.all).run.run prepared = found at hmain hflatten ⊢
  obtain ⟨error | cases, between⟩ := found
  · exact ⟨_, TaskPool.reaches_of_comesTo hmain [] [], rfl, rfl⟩
  obtain rfl := hflatten cases rfl
  have hmirrors : ∀ task, (body registry layout task).Mirrors (registry.runCase layout task.1 task.2) :=
    fun task => registry.mirrors_runCase layout task.1 task.2
  have htasks := TaskPool.reaches_of_mirrors (ε := BaselineError) hmirrors cases.flatten between []
  have houtcomes := run_mapM_lift (ε := BaselineError)
    (fun task : Kind × Path => registry.runCase layout task.1 task.2) cases.flatten between
  refine ⟨_, (TaskPool.reaches_of_comesTo hmain [] []).trans htasks, ?_, ?_⟩
  · dsimp only
    rw [run_bind, houtcomes]
    rfl
  · dsimp only
    rw [run_bind, houtcomes]
    rfl

variable {registry layout}

theorem summary?_eq_ok_iff {run : SuiteRun} {summary : SuiteSummary} :
    summary? run = some (.ok summary) ↔
      run.main = .done (.ok ()) ∧ run.tasks = [] ∧ .ofOutcomes run.results = summary := by
  obtain ⟨files, ⟨error | ⟨⟩⟩ | - | -, - | ⟨task, tasks⟩, results⟩ := run <;> simp [summary?]

theorem summary?_eq_error_iff {run : SuiteRun} {error : BaselineError} :
    summary? run = some (.error error) ↔ run.main = .done (.error error) := by
  obtain ⟨files, ⟨error | ⟨⟩⟩ | - | -, - | ⟨task, tasks⟩, results⟩ := run <;> simp [summary?]

/-- A run with a summary has come to its end. -/
theorem endsIn_of_ok {P : SuiteRun → Prop} {run : SuiteRun} {summary : SuiteSummary}
    (h : TaskPool.EndsIn (body registry layout) P run) (hsummary : summary? run = some (.ok summary)) :
    P run := by
  obtain ⟨files, main, tasks, results⟩ := run
  obtain ⟨rfl, rfl, -⟩ := summary?_eq_ok_iff.1 hsummary
  obtain ⟨-, last⟩ := h
  refine last fun next hstep => ?_
  generalize htasks : ([] : List (Script Empty CaseOutcome)) = tasks at hstep
  cases hstep <;> simp at htasks

/-- What cases still do cannot mend a run that has failed. -/
theorem endsIn_of_error {P : SuiteRun → Prop} {run : SuiteRun} {error : BaselineError}
    (h : TaskPool.EndsIn (body registry layout) P run)
    (hsummary : summary? run = some (.error error)) :
    ∃ last, P last ∧ summary? last = some (.error error) := by
  rw [summary?_eq_error_iff] at hsummary
  induction h with
  | @intro run _ last ih =>
    by_cases hstuck : ∀ next, ¬ TaskPool.Step (body registry layout) run next
    · exact ⟨run, last hstuck, summary?_eq_error_iff.2 hsummary⟩
    · obtain ⟨next, hstep⟩ := not_forall_not.1 hstuck
      refine ih next hstep ?_
      cases hstep with
      | taskAsks => exact hsummary
      | mainAsks => cases hsummary
      | mainStarts => cases hsummary
      | collects => cases hsummary

/-- One case after the other, the run comes to what all runs come to. -/
theorem runAlone_complete (registry : GrammarRegistry σ) (h : files.WellFormed) (hsep : layout.Separate)
    (hready : layout.Recreatable files) (hdistinct : layout.DistinctReports files) :
    ∃ summary : SuiteSummary, (registry.runAlone layout files).1 = .ok summary ∧
      summary.Covers registry layout files ∧
      layout.Reported registry files (registry.runAlone layout files).2 := by
  obtain ⟨prepared, hprepared, hends⟩ := endsIn_finished registry h hsep hready
  obtain ⟨last, hreaches, hsummary, hfiles⟩ := reaches_runAlone registry layout files
  have hlast := hends.of_reaches hreaches
  cases hresult : (registry.runAlone layout files).1 with
  | error error =>
    obtain ⟨stopped, hstopped, herror⟩ := endsIn_of_error hlast (hresult ▸ hsummary)
    rw [summary?_of_finished hstopped] at herror
    cases herror
  | ok summary =>
    have hfinished := endsIn_of_ok hlast (hresult ▸ hsummary)
    obtain ⟨-, -, rfl⟩ := summary?_eq_ok_iff.1 (hresult ▸ hsummary)
    refine ⟨_, rfl, SuiteSummary.covers_ofOutcomes h hsep hdistinct hfinished.results, ?_⟩
    rw [← hfiles]
    exact BaselineLayout.reported_of_accounted h hsep hprepared hfinished.accounted
      hdistinct.consistent hfinished.world

end SuiteRun

end HighlightGrammar

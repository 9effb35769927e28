import HighlightGrammar.Proofs.Baseline.Outcomes
import HighlightGrammar.Proofs.Storage.TaskPools

/-!
# What a run of the suite comes to

The cases of a run take turns in any order. Each of them comes to the end that the files before the
run tell, and together they leave their reports in the folder of generated reports and nothing else
changed. -/
namespace HighlightGrammar

open FileSystem
open HighlightGrammar.Path (IsFileName)

variable {σ : Type} {registry : GrammarRegistry σ} {layout : BaselineLayout}
  {files prepared : FileSystem}

namespace BaselineLayout

/-- All cases, in the order in which they are started. -/
def allCases (layout : BaselineLayout) (files : FileSystem) : List (Kind × Path) :=
  Kind.all.flatMap fun kind => (layout.casesIn files kind).map (kind, ·)

theorem mem_allCases_iff (h : files.WellFormed) (hsep : layout.Separate) {task : Kind × Path} :
    task ∈ layout.allCases files ↔ layout.IsCase files task.1 task.2 := by
  rw [← mem_casesIn_iff hsep h, allCases, List.mem_flatMap]
  constructor
  · rintro ⟨kind, -, htask⟩
    obtain ⟨case, hcase, rfl⟩ := List.mem_map.1 htask
    exact hcase
  · exact fun hcase => ⟨task.1, task.1.mem_all, List.mem_map.2 ⟨task.2, hcase, rfl⟩⟩

theorem nodup_allCases (h : files.WellFormed) : (layout.allCases files).Nodup := by
  rw [allCases, List.nodup_flatMap]
  refine ⟨fun kind _ => (nodup_casesIn h kind).map (Prod.mk_right_injective kind), ?_⟩
  refine List.Pairwise.imp (fun hne => ?_) (by decide : Kind.all.Pairwise (· ≠ ·))
  rw [Function.onFun, List.disjoint_left]
  intro task htask htask'
  obtain ⟨case, -, rfl⟩ := List.mem_map.1 htask
  obtain ⟨case', -, heq⟩ := List.mem_map.1 htask'
  exact hne (Prod.mk.inj heq).1.symm

/-- No two cases of a kind share the name of their report. -/
def DistinctReports (layout : BaselineLayout) (files : FileSystem) : Prop :=
  ∀ kind case case', layout.IsCase files kind case → layout.IsCase files kind case' →
    baselineFileName case = baselineFileName case' → case = case'

end BaselineLayout

/-- Cases of a kind whose reports share a name have the same report. -/
def GrammarRegistry.Consistent (registry : GrammarRegistry σ) (layout : BaselineLayout)
    (files : FileSystem) : Prop :=
  ∀ kind case case' report report', layout.IsCase files kind case →
    layout.IsCase files kind case' → registry.Generates layout files kind case report →
    registry.Generates layout files kind case' report' →
    baselineFileName case = baselineFileName case' → report.text = report'.text

theorem BaselineLayout.DistinctReports.consistent (h : layout.DistinctReports files) :
    registry.Consistent layout files := by
  intro kind case case' report report' hcase hcase' hreport hreport' hfile
  obtain rfl := h kind case case' hcase hcase' hfile
  rw [hreport.unique hreport']

/-- What a case comes to. -/
def GrammarRegistry.plan (registry : GrammarRegistry σ) (layout : BaselineLayout)
    (files : FileSystem) (task : Kind × Path) : TaskPool.Plan CaseOutcome :=
  ⟨⟨task.1, task.2, baselineFileName task.2,
      registry.expectedResult layout files task.1 task.2⟩,
    registry.reportPuts layout files task.1 task.2⟩

/-- The reports of all cases, as they are put. -/
def GrammarRegistry.allPuts (registry : GrammarRegistry σ) (layout : BaselineLayout)
    (files : FileSystem) : List Put :=
  ((layout.allCases files).map (registry.plan layout files)).flatMap TaskPool.Plan.puts

theorem GrammarRegistry.mem_allPuts_iff (h : files.WellFormed) (hsep : layout.Separate) {put : Put} :
    put ∈ registry.allPuts layout files ↔ ∃ kind case report, layout.IsCase files kind case ∧
      registry.Generates layout files kind case report ∧
      put = (layout.generated.place ++ [kind.folder] ++ [baselineFileName case],
        .file report.text.toUTF8) := by
  rw [allPuts, List.mem_flatMap]
  constructor
  · rintro ⟨plan, hplan, hput⟩
    obtain ⟨⟨kind, case⟩, htask, rfl⟩ := List.mem_map.1 hplan
    obtain ⟨report, hreport, rfl⟩ := mem_reportPuts_iff.1 hput
    exact ⟨kind, case, report, (BaselineLayout.mem_allCases_iff h hsep).1 htask, hreport, rfl⟩
  · rintro ⟨kind, case, report, hcase, hreport, rfl⟩
    have htask : (kind, case) ∈ layout.allCases files :=
      (BaselineLayout.mem_allCases_iff h hsep).2 hcase
    exact ⟨_, List.mem_map_of_mem htask, mem_reportPuts_iff.2 ⟨report, hreport, rfl⟩⟩

theorem GrammarRegistry.Generates.isFileName {kind : Kind} {case : Path} {report : Report}
    (hcase : layout.IsCase files kind case)
    (h : registry.Generates layout files kind case report) : IsFileName (baselineFileName case) :=
  ⟨hcase.isName_report, h.room.1⟩

namespace SuiteRun

/-- The suite starts all cases and does nothing else once its folder is ready. -/
theorem delivers_starts (h : files.WellFormed) (hsep : layout.Separate) :
    Script.Delivers (layout.Ready files) (.ok ()) [] (layout.allCases files)
      (Kind.all.forM fun kind => do
        let cases ← layout.casesOf kind
        cases.forM fun case => ExceptT.lift (Script.start (kind, case)) :
          ExceptT BaselineError (Script (Kind × Path)) Unit).run := by
  have hnothing : ∀ {α : Type} (items : List α), items.flatMap (fun _ => ([] : List Put)) = [] :=
    fun items => List.flatMap_eq_nil_iff.2 fun _ _ => rfl
  have hcases : ∀ (kind : Kind) (cases : List Path), Script.Delivers (layout.Ready files) (.ok ()) []
      (cases.map (kind, ·)) (cases.forM fun case => ExceptT.lift (Script.start (kind, case)) :
        ExceptT BaselineError (Script (Kind × Path)) Unit).run := by
    intro kind cases
    have hall : Script.Delivers (layout.Ready files) (Except.ok () : Except BaselineError Unit)
        (cases.flatMap fun _ => []) (cases.flatMap fun case => [(kind, case)]) _ :=
      Script.delivers_forM fun case _ => (Script.delivers_start (kind, case)).lift
    rwa [hnothing, ← List.map_eq_flatMap] at hall
  have hkind : ∀ kind ∈ Kind.all, Script.Delivers (layout.Ready files) (.ok ()) []
      ((layout.casesIn files kind).map (kind, ·)) (do
        let cases ← layout.casesOf kind
        cases.forM fun case => ExceptT.lift (Script.start (kind, case)) :
          ExceptT BaselineError (Script (Kind × Path)) Unit).run := fun kind _ =>
    (BaselineLayout.delivers_casesOf hsep h kind).run_bind_of_looks (hcases kind _)
  have hkinds := Script.delivers_forM hkind
  rwa [hnothing] at hkinds

/-- A run ends when every case has come to its end and put its report. -/
theorem endsIn_finished (registry : GrammarRegistry σ) (h : files.WellFormed) (hsep : layout.Separate)
    (hready : layout.Recreatable files) : ∃ prepared, layout.Prepared files prepared ∧
      TaskPool.EndsIn (body registry layout) (TaskPool.Finished (layout.Ready files) prepared
        (registry.allPuts layout files)
        (((layout.allCases files).map (registry.plan layout files)).map TaskPool.Plan.result))
        (begin layout files) := by
  rcases hrun : (layout.prepareGenerated : ExceptT BaselineError (StateM FileSystem) Unit).run.run
    files with ⟨result, prepared⟩
  obtain rfl : result = .ok () := (congrArg Prod.fst hrun).symm.trans hready
  have hprepared := BaselineLayout.prepared_of_run h hsep hrun
  refine ⟨prepared, hprepared, ?_⟩
  have hcomes := BaselineLayout.mirrors_prepareGenerated (τ := Kind × Path) layout files
  rw [hrun] at hcomes
  refine TaskPool.endsIn_bind hcomes ?_
  have hfile : ∀ put ∈ registry.allPuts layout files, ∃ kind name bytes, IsFileName name ∧
      put = (layout.generated.place ++ [Kind.folder kind] ++ [name], .file bytes) := by
    intro put hput
    obtain ⟨kind, case, report, hcase, hreport, rfl⟩ :=
      (GrammarRegistry.mem_allPuts_iff h hsep).1 hput
    exact ⟨kind, _, _, hreport.isFileName hcase, rfl⟩
  refine TaskPool.endsIn_finished (hprepared.ready hsep) (delivers_starts h hsep)
    (fun task htask => ?_) (fun found hfound put hput => ?_) fun put hput => ?_
  · have hcase := (BaselineLayout.mem_allCases_iff h hsep).1 htask
    exact registry.delivers_runCase h hsep hcase (hprepared.openable task.1).printable
  · obtain ⟨kind, name, bytes, hname, rfl⟩ := hfile put hput
    exact hfound.put hsep kind hname bytes
  · obtain ⟨kind, name, bytes, hname, rfl⟩ := hfile put hput
    exact Place.isAround_append_name _ hname

theorem summary?_of_finished {World : FileSystem → Prop} {all : List Put}
    {expected : List CaseOutcome} {run : SuiteRun}
    (h : TaskPool.Finished World prepared all expected run) :
    summary? run = some (.ok (.ofOutcomes run.results)) := by
  rw [summary?, h.main, h.tasks]

end SuiteRun

/-- The summary holds one outcome for each case, by kind and then by the name of the report. -/
structure SuiteSummary.Covers (summary : SuiteSummary) (registry : GrammarRegistry σ)
    (layout : BaselineLayout) (files : FileSystem) : Prop where
  sorted : summary.outcomes.Pairwise fun a b =>
    a.kind.index < b.kind.index ∨ a.kind = b.kind ∧ a.file < b.file
  cases : ∀ kind case, (∃ outcome ∈ summary.outcomes, outcome.kind = kind ∧ outcome.case = case) ↔
    layout.IsCase files kind case
  tells : ∀ outcome ∈ summary.outcomes, outcome.Tells registry layout files

/-- The folder of generated reports holds the reports of the cases, and nothing else has changed but
that folders around it may have been added. -/
structure BaselineLayout.Reported (layout : BaselineLayout) (registry : GrammarRegistry σ)
    (files after : FileSystem) : Prop where
  folder : after.get? layout.generated.place = some .folder
  generated : ∀ rest ≠ [], ∀ entry, after.get? (layout.generated.place ++ rest) = some entry ↔
    (∃ kind : Kind, rest = [kind.folder] ∧ entry = .folder) ∨
      ∃ kind case report, layout.IsCase files kind case ∧
        registry.Generates layout files kind case report ∧
        rest = [kind.folder, baselineFileName case] ∧ entry = .file report.text.toUTF8
  cases : ∀ place, place.isWithin layout.cases.place = true → after.get? place = files.get? place
  baselines : ∀ place, place.isWithin layout.baselines.place = true →
    after.get? place = files.get? place
  elsewhere : ChangesOnly layout.generated files after

/-- Outcomes are sorted by kind and then by the name of the report. -/
theorem SuiteSummary.pairwise_ofOutcomes (outcomes : List CaseOutcome) :
    (ofOutcomes outcomes).outcomes.Pairwise fun a b =>
      a.kind.index < b.kind.index ∨ a.kind = b.kind ∧ a.file ≤ b.file := by
  have hle : ∀ a b : CaseOutcome, (decide (a.kind.index < b.kind.index) ||
      (a.kind == b.kind && decide (a.file ≤ b.file))) = true ↔
        (a.kind.index < b.kind.index ∨ a.kind = b.kind ∧ a.file ≤ b.file) := by simp
  refine (List.pairwise_mergeSort (fun a b c hab hbc => ?_) (fun a b => ?_) outcomes).imp
    fun hab => (hle _ _).1 hab
  · rw [hle] at hab hbc ⊢
    rcases hab with hab | ⟨hab, hfile⟩ <;> rcases hbc with hbc | ⟨hbc, hfile'⟩
    · exact Or.inl (Nat.lt_trans hab hbc)
    · exact Or.inl (hbc ▸ hab)
    · exact Or.inl (hab ▸ hbc)
    · exact Or.inr ⟨hab.trans hbc, String.le_trans hfile hfile'⟩
  · rw [Bool.or_eq_true, hle, hle]
    by_cases hkind : a.kind = b.kind
    · rcases String.le_total a.file b.file with hfile | hfile
      · exact Or.inl (Or.inr ⟨hkind, hfile⟩)
      · exact Or.inr (Or.inr ⟨hkind.symm, hfile⟩)
    · rcases Nat.lt_or_gt_of_ne fun hindex => hkind (Kind.index_injective hindex) with hlt | hlt
      · exact Or.inl (Or.inl hlt)
      · exact Or.inr (Or.inl hlt)

theorem SuiteSummary.mem_ofOutcomes_iff (h : files.WellFormed) (hsep : layout.Separate)
    {outcomes : List CaseOutcome} (hperm : outcomes.Perm
      (((layout.allCases files).map (registry.plan layout files)).map TaskPool.Plan.result))
    {outcome : CaseOutcome} : outcome ∈ (ofOutcomes outcomes).outcomes ↔ ∃ kind case,
      layout.IsCase files kind case ∧ (registry.plan layout files (kind, case)).result = outcome := by
  have hsorted : (ofOutcomes outcomes).outcomes.Perm
      (((layout.allCases files).map (registry.plan layout files)).map TaskPool.Plan.result) :=
    (List.mergeSort_perm _ _).trans hperm
  rw [hsorted.mem_iff, List.map_map, List.mem_map]
  simp only [BaselineLayout.mem_allCases_iff h hsep, Prod.exists, Function.comp_apply]

/-- Outcomes of distinct cases are put in a strict order. -/
theorem SuiteSummary.covers_ofOutcomes (h : files.WellFormed) (hsep : layout.Separate)
    (hdistinct : layout.DistinctReports files) {outcomes : List CaseOutcome}
    (hperm : outcomes.Perm
      (((layout.allCases files).map (registry.plan layout files)).map TaskPool.Plan.result)) :
    (ofOutcomes outcomes).Covers registry layout files := by
  have hsorted : (ofOutcomes outcomes).outcomes.Perm
      (((layout.allCases files).map (registry.plan layout files)).map TaskPool.Plan.result) :=
    (List.mergeSort_perm _ _).trans hperm
  have hfiles : (((layout.allCases files).map (registry.plan layout files)).map
      TaskPool.Plan.result).Pairwise fun a b => a.kind = b.kind → a.file ≠ b.file := by
    rw [List.pairwise_map, List.pairwise_map]
    refine (BaselineLayout.nodup_allCases h).imp_of_mem ?_
    rintro ⟨kind, case⟩ ⟨kind', case'⟩ hcase hcase' hne rfl hfile
    rw [BaselineLayout.mem_allCases_iff h hsep] at hcase hcase'
    exact hne (congrArg (kind, ·) (hdistinct kind case case' hcase hcase' hfile))
  refine ⟨?_, fun kind case => ?_, fun outcome houtcome => ?_⟩
  · have hne := (hsorted.pairwise_iff fun h hkind => (h hkind.symm).symm).2 hfiles
    refine ((pairwise_ofOutcomes outcomes).and hne).imp fun ⟨hle, hne⟩ => hle.imp_right ?_
    exact fun ⟨hkind, hfile⟩ => ⟨hkind, String.not_le.1 fun hge =>
      hne hkind (String.le_antisymm hfile hge)⟩
  · constructor
    · rintro ⟨outcome, houtcome, rfl, rfl⟩
      obtain ⟨kind, case, hcase, rfl⟩ := (mem_ofOutcomes_iff h hsep hperm).1 houtcome
      exact hcase
    · exact fun hcase => ⟨_, (mem_ofOutcomes_iff h hsep hperm).2 ⟨kind, case, hcase, rfl⟩, rfl, rfl⟩
  · obtain ⟨kind, case, -, rfl⟩ := (mem_ofOutcomes_iff h hsep hperm).1 houtcome
    exact CaseOutcome.tells_expectedResult registry layout files kind case

namespace BaselineLayout

section Accounted

variable {after : FileSystem} (h : files.WellFormed) (hsep : layout.Separate)
  (hprepared : layout.Prepared files prepared)
  (haccounted : TaskPool.Accounted prepared (registry.allPuts layout files) [] after)

include h hsep

theorem report_of_mem_allPuts {place : Place} {entry : Entry}
    (hmem : (place, entry) ∈ registry.allPuts layout files) :
    ∃ kind case report, layout.IsCase files kind case ∧
      registry.Generates layout files kind case report ∧
      place = layout.generated.place ++ [kind.folder, baselineFileName case] ∧
      entry = .file report.text.toUTF8 := by
  obtain ⟨kind, case, report, hcase, hreport, heq⟩ :=
    (GrammarRegistry.mem_allPuts_iff h hsep).1 hmem
  obtain ⟨rfl, rfl⟩ := Prod.mk.inj heq
  exact ⟨kind, case, report, hcase, hreport, List.append_assoc .., rfl⟩

include haccounted

/-- Where no report goes all is as it was prepared. -/
theorem get?_of_accounted {place : Place} (hplace : ∀ (kind : Kind) (name : String),
      IsFileName name → place ≠ layout.generated.place ++ [kind.folder, name]) :
    after.get? place = prepared.get? place := by
  rcases haccounted place with ⟨entry, hmem, -⟩ | ⟨hsame, -⟩
  · obtain ⟨kind, case, report, hcase, hreport, heq, -⟩ := report_of_mem_allPuts h hsep hmem
    exact absurd heq (hplace kind _ (hreport.isFileName hcase))
  · exact hsame

/-- The report on a case is there, as cases whose reports share a name have the same report. -/
theorem get?_report_of_accounted (hconsistent : registry.Consistent layout files) {kind : Kind}
    {case : Path} {report : Report} (hcase : layout.IsCase files kind case)
    (hreport : registry.Generates layout files kind case report) :
    after.get? (layout.generated.place ++ [kind.folder, baselineFileName case]) =
      some (.file report.text.toUTF8) := by
  rcases haccounted (layout.generated.place ++ [kind.folder, baselineFileName case]) with
    ⟨entry, hmem, hget⟩ | ⟨-, hnever⟩
  · obtain ⟨kind', case', report', hcase', hreport', heq, rfl⟩ := report_of_mem_allPuts h hsep hmem
    obtain ⟨hkind, hfile⟩ : kind.folder = kind'.folder ∧
        baselineFileName case = baselineFileName case' := by
      simpa using List.append_cancel_left heq
    obtain rfl := Kind.folder_injective hkind
    rw [hget, hconsistent kind case case' report report' hcase hcase' hreport hreport' hfile]
  · have hmem : _ ∈ registry.allPuts layout files :=
      (GrammarRegistry.mem_allPuts_iff h hsep).2 ⟨kind, case, report, hcase, hreport, rfl⟩
    rw [List.append_assoc] at hmem
    exact absurd (hnever _ hmem) List.not_mem_nil

include hprepared

theorem folder_of_accounted : after.get? layout.generated.place = some .folder := by
  rw [get?_of_accounted h hsep haccounted (by simp), hprepared.get?_generated]

theorem kindFolder_of_accounted (kind : Kind) :
    after.get? (layout.generated.place ++ [kind.folder]) = some .folder := by
  rw [get?_of_accounted h hsep haccounted (by simp), hprepared.folder kind]

/-- What is there is the folder of a kind or the report on a case. -/
theorem folder_or_report_of_get? {rest : Place} (hrest : rest ≠ []) {entry : Entry}
    (hget : after.get? (layout.generated.place ++ rest) = some entry) :
    (∃ kind : Kind, rest = [kind.folder] ∧ entry = .folder) ∨
      ∃ kind case report, layout.IsCase files kind case ∧
        registry.Generates layout files kind case report ∧
        rest = [kind.folder, baselineFileName case] ∧ entry = .file report.text.toUTF8 := by
  rcases haccounted (layout.generated.place ++ rest) with ⟨entry', hmem, hget'⟩ | ⟨hsame, -⟩
  · obtain ⟨kind, case, report, hcase, hreport, heq, rfl⟩ := report_of_mem_allPuts h hsep hmem
    exact Or.inr ⟨kind, case, report, hcase, hreport, List.append_cancel_left heq,
      Option.some.inj (hget.symm.trans hget')⟩
  · rw [hsame] at hget
    by_cases hkind : ∃ kind : Kind, rest = [kind.folder]
    · obtain ⟨kind, rfl⟩ := hkind
      rw [hprepared.folder kind] at hget
      exact Or.inl ⟨kind, rfl, (Option.some.inj hget).symm⟩
    · rw [hprepared.empty rest hrest fun kind heq => hkind ⟨kind, heq⟩] at hget
      cases hget

/-- When all reports have been put each of them is there. -/
theorem reported_of_accounted (hconsistent : registry.Consistent layout files)
    (hafter : layout.Ready files after) : layout.Reported registry files after where
  folder := folder_of_accounted h hsep hprepared haccounted
  generated := by
    intro rest hrest entry
    refine ⟨folder_or_report_of_get? h hsep hprepared haccounted hrest, ?_⟩
    rintro (⟨kind, rfl, rfl⟩ | ⟨kind, case, report, hcase, hreport, rfl, rfl⟩)
    · exact kindFolder_of_accounted h hsep hprepared haccounted kind
    · exact get?_report_of_accounted h hsep haccounted hconsistent hcase hreport
  cases := hafter.cases
  baselines := hafter.baselines
  elsewhere := by
    intro place hplace
    rw [get?_of_accounted h hsep haccounted]
    · exact hprepared.elsewhere place hplace
    · rintro kind name hname rfl
      have hwithin := isWithin_kind_name layout.generated.place kind hname
      rw [List.append_assoc] at hwithin
      cases hwithin.symm.trans hplace

end Accounted

end BaselineLayout

/-- In whatever order the cases of a run take turns, the summary tells what became of each case, and
the folder of generated reports holds the reports of this run. -/
theorem SuiteRun.endsIn_complete (registry : GrammarRegistry σ) (h : files.WellFormed)
    (hsep : layout.Separate) (hready : layout.Recreatable files)
    (hdistinct : layout.DistinctReports files) :
    TaskPool.EndsIn (body registry layout) (fun run => ∃ summary : SuiteSummary,
      SuiteRun.summary? run = some (.ok summary) ∧ summary.Covers registry layout files ∧
        layout.Reported registry files run.files) (begin layout files) := by
  obtain ⟨prepared, hprepared, hends⟩ := endsIn_finished registry h hsep hready
  exact hends.imp fun run hrun => ⟨.ofOutcomes run.results, summary?_of_finished hrun,
    SuiteSummary.covers_ofOutcomes h hsep hdistinct hrun.results,
    BaselineLayout.reported_of_accounted h hsep hprepared hrun.accounted hdistinct.consistent
      hrun.world⟩

/-- A project with two programs. Of the report on one of them there is an approved copy, and a report
has been left by an earlier run. -/
def twoPrograms : FileSystem :=
  ⟨[(["cases"], .folder), (["cases", "source"], .folder),
    (["cases", "source", "a.4gl"], .file "main".toUTF8),
    (["cases", "source", "b.4gl"], .file "exit".toUTF8),
    (["baselines"], .folder), (["baselines", "source"], .folder),
    (["baselines", "source", "a.baseline.txt"], .file "main".toUTF8),
    (["generated"], .folder), (["generated", "c.baseline.txt"], .file "exit".toUTF8)]⟩

/-- Grammars that take every line for one token. -/
def lineRegistry : GrammarRegistry Unit := oneTokenRegistry () fun kind => [kind.scopeName]

theorem BaselineLayout.separate_under : (BaselineLayout.under ⟨""⟩).Separate := by
  constructor <;> decide +kernel

/-- The project with two programs has all that a run asks for. -/
theorem SuiteRun.endsIn_complete_twoPrograms :
    twoPrograms.WellFormed ∧ (BaselineLayout.under ⟨""⟩).Recreatable twoPrograms ∧
    (BaselineLayout.under ⟨""⟩).DistinctReports twoPrograms ∧
    TaskPool.EndsIn (body lineRegistry (.under ⟨""⟩)) (fun run => ∃ summary : SuiteSummary,
      SuiteRun.summary? run = some (.ok summary) ∧
        summary.Covers lineRegistry (.under ⟨""⟩) twoPrograms ∧
        (BaselineLayout.under ⟨""⟩).Reported lineRegistry twoPrograms run.files)
      (begin (.under ⟨""⟩) twoPrograms) := by
  have hwell : twoPrograms.WellFormed := by decide +kernel
  have hready : (BaselineLayout.under ⟨""⟩).Recreatable twoPrograms := by
    unfold BaselineLayout.Recreatable
    decide +kernel
  have hdistinct : (BaselineLayout.under ⟨""⟩).DistinctReports twoPrograms := by
    have hcases : ∀ kind case, (BaselineLayout.under ⟨""⟩).IsCase twoPrograms kind case →
        case = ⟨"cases/source/a.4gl"⟩ ∨ case = ⟨"cases/source/b.4gl"⟩ :=
      BaselineLayout.forall_case_of_names hwell (by decide +kernel)
    intro kind case case' hcase hcase' hfile
    rcases hcases kind case hcase with rfl | rfl <;> rcases hcases kind case' hcase' with rfl | rfl
    · rfl
    · exact absurd hfile (by decide +kernel)
    · exact absurd hfile (by decide +kernel)
    · rfl
  exact ⟨hwell, hready, hdistinct, SuiteRun.endsIn_complete lineRegistry hwell
    BaselineLayout.separate_under hready hdistinct⟩

end HighlightGrammar

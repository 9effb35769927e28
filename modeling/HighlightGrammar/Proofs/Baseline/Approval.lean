import HighlightGrammar.Proofs.Baseline.SuiteRuns

/-!
# Approving a run

When the reports of a run are copied over the approved ones, the next run finds the same cases, makes
the same reports and finds them approved. Reports that share a name are the exception: only the one
that was written last is left to be copied. -/
namespace HighlightGrammar

open FileSystem
open HighlightGrammar.Path (IsFileName)

variable {σ : Type} {registry : GrammarRegistry σ} {layout : BaselineLayout}
  {files first approved : FileSystem}

namespace BaselineLayout

/-- The generated reports have been copied over the approved ones, and nothing else has changed. -/
structure Approves (layout : BaselineLayout) (first approved : FileSystem) : Prop where
  wellFormed : approved.WellFormed
  copied : ∀ (kind : Kind) (name : String) (bytes : ByteArray),
    first.get? (layout.generated.place ++ [kind.folder, name]) = some (.file bytes) →
    approved.readBytes (layout.baselineFile kind name) = .ok bytes
  elsewhere : ChangesOnly layout.baselines first approved

section KeptCases

variable {found : FileSystem} {kind : Kind} {case : Path} (h : files.WellFormed)
  (hsep : layout.Separate) (hfound : layout.KeepsCases files found)

include h hsep hfound

theorem KeepsCases.isCase_iff :
    layout.IsCase found kind case ↔ layout.IsCase files kind case := by
  constructor
  · rintro ⟨name, hname, rfl, hfile⟩
    exact ⟨name, hname, rfl, (hfound.kind?_case hsep h kind hname).symm.trans hfile⟩
  · rintro ⟨name, hname, rfl, hfile⟩
    exact ⟨name, hname, rfl, (hfound.kind?_case hsep h kind hname).trans hfile⟩

theorem KeepsCases.generates_iff (hcase : layout.IsCase files kind case) {report : Report} :
    registry.Generates layout found kind case report ↔
      registry.Generates layout files kind case report := by
  have hread := hfound.answer_readText hsep h hcase
  constructor
  · rintro ⟨⟨text, htext, hmade⟩, hroom⟩
    exact ⟨⟨text, hread ▸ htext, hmade⟩, hroom⟩
  · rintro ⟨⟨text, htext, hmade⟩, hroom⟩
    exact ⟨⟨text, hread.symm ▸ htext, hmade⟩, hroom⟩

theorem KeepsCases.consistent (hconsistent : registry.Consistent layout files) :
    registry.Consistent layout found := by
  intro kind case case' report report' hcase hcase' hreport hreport'
  rw [hfound.isCase_iff h hsep] at hcase hcase'
  rw [hfound.generates_iff h hsep hcase] at hreport
  rw [hfound.generates_iff h hsep hcase'] at hreport'
  exact hconsistent kind case case' report report' hcase hcase' hreport hreport'

end KeptCases

theorem Approves.keepsCases (h : layout.Approves first approved) (hsep : layout.Separate)
    (hkept : layout.KeepsCases files first) : layout.KeepsCases files approved :=
  ⟨h.wellFormed, fun place hplace =>
    (h.elsewhere.get?_eq hsep.baselines_direct hsep.cases_baselines hplace).trans
      (hkept.cases place hplace)⟩

/-- After a run its folder can be made ready again. -/
theorem Approves.recreatable (h : layout.Approves first approved) (hsep : layout.Separate)
    (hfolder : first.get? layout.generated.place = some .folder)
    (hopen : ∀ kind : Kind, (layout.generated.join ⟨kind.folder⟩).Openable) :
    layout.Recreatable approved := by
  refine BaselineLayout.recreatable_of_folder h.wellFormed hsep hopen ?_
  rw [h.elsewhere.get?_eq hsep.baselines_direct hsep.baselines_apart.symm
    (Place.isWithin_self layout.generated.place), hfolder]

/-- After approval each case that has a report ends well. -/
theorem Approves.expectedResult_eq (h : layout.Approves first approved)
    (hreported : layout.Reported registry files first) {kind : Kind} {case : Path} {report : Report}
    (hcase : layout.IsCase files kind case)
    (hreport : registry.Generates layout files kind case report)
    (hagain : registry.Generates layout approved kind case report) :
    registry.expectedResult layout approved kind case = .ok () := by
  refine GrammarRegistry.Ends.expectedResult_eq (.ok hagain (answer_readText_of_bytes
    (h.copied kind _ _ ?_)))
  exact (hreported.generated _ (by simp) _).2 (Or.inr ⟨kind, case, report, hcase, hreport, rfl, rfl⟩)

end BaselineLayout

/-- Approving a run makes the next one pass: every case that had a report ends well, and the folder of
generated reports is the same. -/
def GrammarRegistry.ApprovalPasses (registry : GrammarRegistry σ) (layout : BaselineLayout)
    (files : FileSystem) : Prop :=
  TaskPool.EndsIn (SuiteRun.body registry layout) (fun run =>
    ∀ approved, layout.Approves run.files approved →
      TaskPool.EndsIn (SuiteRun.body registry layout) (fun again =>
        ∃ summary : SuiteSummary, SuiteRun.summary? again = some (.ok summary) ∧
          (∀ kind case, layout.IsCase files kind case →
            ∃ outcome ∈ summary.outcomes, outcome.kind = kind ∧ outcome.case = case) ∧
          (∀ outcome ∈ summary.outcomes, (∃ report,
            registry.Generates layout files outcome.kind outcome.case report) →
            outcome.result = .ok ()) ∧
          ∀ rest, again.files.get? (layout.generated.place ++ rest) =
            run.files.get? (layout.generated.place ++ rest))
        (SuiteRun.begin layout approved))
    (SuiteRun.begin layout files)

/-- Approval makes the next run pass, provided that reports which share a name are the same. -/
theorem GrammarRegistry.approvalPasses_of_consistent (registry : GrammarRegistry σ)
    (h : files.WellFormed) (hsep : layout.Separate) (hready : layout.Recreatable files)
    (hconsistent : registry.Consistent layout files) : registry.ApprovalPasses layout files := by
  obtain ⟨prepared, hprepared, hends⟩ := SuiteRun.endsIn_finished registry h hsep hready
  refine hends.imp fun run hrun approved happroves => ?_
  have hreported := BaselineLayout.reported_of_accounted h hsep hprepared hrun.accounted
    hconsistent hrun.world
  have hkept := happroves.keepsCases hsep hrun.world.toKeepsCases
  have hagain := happroves.recreatable hsep hreported.folder hprepared.openable
  obtain ⟨prepared', hprepared', hends'⟩ :=
    SuiteRun.endsIn_finished registry happroves.wellFormed hsep hagain
  refine hends'.imp fun again hrun' => ⟨.ofOutcomes again.results,
    SuiteRun.summary?_of_finished hrun', fun kind case hcase => ?_,
    fun outcome houtcome ⟨report, hreport⟩ => ?_, fun rest => ?_⟩
  · rw [← hkept.isCase_iff h hsep] at hcase
    exact ⟨_, (SuiteSummary.mem_ofOutcomes_iff happroves.wellFormed hsep hrun'.results).2
      ⟨kind, case, hcase, rfl⟩, rfl, rfl⟩
  · obtain ⟨kind, case, hcase, rfl⟩ :=
      (SuiteSummary.mem_ofOutcomes_iff happroves.wellFormed hsep hrun'.results).1 houtcome
    rw [hkept.isCase_iff h hsep] at hcase
    exact happroves.expectedResult_eq hreported hcase hreport
      ((hkept.generates_iff h hsep hcase).2 hreport)
  · have hreported' := BaselineLayout.reported_of_accounted happroves.wellFormed hsep hprepared'
      hrun'.accounted (hkept.consistent h hsep hconsistent) hrun'.world
    by_cases hrest : rest = []
    · rw [hrest, List.append_nil, hreported.folder, hreported'.folder]
    · refine Option.ext fun entry => ?_
      rw [hreported.generated rest hrest, hreported'.generated rest hrest]
      refine or_congr_right (exists_congr fun kind => exists_congr fun case => exists_congr
        fun report => ?_)
      rw [hkept.isCase_iff h hsep]
      exact and_congr_right fun hcase => and_congr_left fun _ =>
        hkept.generates_iff h hsep hcase

/-- If every run can be approved and the next one passes, then reports that share a name are the
same. -/
theorem GrammarRegistry.consistent_of_approvalPasses (h : files.WellFormed) (hsep : layout.Separate)
    (hready : layout.Recreatable files)
    (happrovable : TaskPool.EndsIn (SuiteRun.body registry layout)
      (fun run => ∃ approved, layout.Approves run.files approved) (SuiteRun.begin layout files))
    (hpasses : registry.ApprovalPasses layout files) : registry.Consistent layout files := by
  obtain ⟨prepared, hprepared, hends⟩ := SuiteRun.endsIn_finished registry h hsep hready
  obtain ⟨run, hrun, ⟨approved, happroves⟩, hpass⟩ := (hends.and (happrovable.and hpasses)).exists
  have hkept := happroves.keepsCases hsep hrun.world.toKeepsCases
  have hfolder := BaselineLayout.folder_of_accounted h hsep hprepared hrun.accounted
  have hagain := happroves.recreatable hsep hfolder hprepared.openable
  obtain ⟨_, -, hends'⟩ :=
    SuiteRun.endsIn_finished registry happroves.wellFormed hsep hagain
  obtain ⟨again, hrun', summary, hsummary, hall, hok, -⟩ :=
    (hends'.and (hpass approved happroves)).exists
  obtain rfl : summary = .ofOutcomes again.results := by
    rw [SuiteRun.summary?_of_finished hrun'] at hsummary
    exact (Except.ok.inj (Option.some.inj hsummary)).symm
  have happroved : ∀ kind case report, layout.IsCase files kind case →
      registry.Generates layout files kind case report →
      approved.answer (Storage.readText (layout.baselineFile kind (baselineFileName case))) =
        .ok report.text := by
    intro kind case report hcase hreport
    obtain ⟨outcome, houtcome, rfl, rfl⟩ := hall kind case hcase
    have hresult := hok outcome houtcome ⟨report, hreport⟩
    obtain ⟨kind, case, -, rfl⟩ :=
      (SuiteSummary.mem_ofOutcomes_iff happroves.wellFormed hsep hrun'.results).1 houtcome
    cases GrammarRegistry.ends_iff.2 hresult with
    | ok generates read =>
      rwa [hreport.unique ((hkept.generates_iff h hsep hcase).1 generates)]
  intro kind case case' report report' hcase hcase' hreport hreport' hfile
  have hread := happroved kind case report hcase hreport
  rw [hfile] at hread
  exact Except.ok.inj (hread.symm.trans (happroved kind case' report' hcase' hreport'))

/-- To approve a run that has left one report it is enough to put this one. -/
theorem BaselineLayout.approves_put (hsep : layout.Separate)
    (hfirst : layout.Ready files first) {kind : Kind} {name : String} (bytes : ByteArray)
    (hname : IsFileName name) (hopen : (layout.baselineFile kind name).Openable)
    (hfolder : files.get? (layout.baselines.place ++ [kind.folder]) = some .folder)
    (hfree : files.get? (layout.baselines.place ++ [kind.folder] ++ [name]) ≠ some .folder)
    (honly : ∀ (kind' : Kind) (name' : String) (bytes' : ByteArray),
      first.get? (layout.generated.place ++ [kind'.folder, name']) = some (.file bytes') →
      kind' = kind ∧ name' = name ∧ bytes' = bytes) :
    layout.Approves first
      (first.put (layout.baselines.place ++ [kind.folder] ++ [name]) (.file bytes)) := by
  have hwithin := isWithin_kind_name layout.baselines.place kind hname
  have haround := Place.isAround_append_name (layout.baselines.place ++ [kind.folder]) hname
  have hwell := hfirst.wellFormed.put hname
    ((hfirst.baselines _ (isWithin_kind _ kind)).trans hfolder)
    (by rwa [hfirst.baselines _ hwithin]) (.file bytes)
  refine ⟨hwell, fun kind' name' bytes' hget => ?_, fun place hplace => Or.inl ?_⟩
  · obtain ⟨rfl, rfl, rfl⟩ := honly kind' name' bytes' hget
    refine hwell.readBytes_join (hsep.baselines_direct.join kind'.isFileName_folder) hopen hname ?_
    rw [Path.place_join kind'.isFileName_folder, get?_put haround, if_pos rfl]
  · rw [get?_put haround, if_neg]
    rintro rfl
    cases hwithin.symm.trans hplace

/-- A run whose reports all have the same name can be approved. -/
theorem SuiteRun.endsIn_approvable (registry : GrammarRegistry σ) (h : files.WellFormed)
    (hsep : layout.Separate) (hready : layout.Recreatable files) (kind : Kind) (name : String)
    (hname : IsFileName name)
    (hopen : (layout.baselineFile kind name).Openable)
    (hfolder : files.get? (layout.baselines.place ++ [kind.folder]) = some .folder)
    (hfree : files.get? (layout.baselines.place ++ [kind.folder] ++ [name]) ≠ some .folder)
    (hcases : ∀ kind' case, layout.IsCase files kind' case →
      kind' = kind ∧ baselineFileName case = name) :
    TaskPool.EndsIn (body registry layout) (fun run => ∃ approved, layout.Approves run.files approved)
      (begin layout files) := by
  obtain ⟨prepared, hprepared, hends⟩ := endsIn_finished registry h hsep hready
  refine hends.imp fun run hrun => ?_
  have hplace : ∀ (kind' : Kind) (name' : String) (bytes : ByteArray),
      run.files.get? (layout.generated.place ++ [kind'.folder, name']) = some (.file bytes) →
      kind' = kind ∧ name' = name := by
    intro kind' name' bytes hget
    obtain ⟨_, -, hfile⟩ | ⟨kind'', case, report, hcase, -, hnames, -⟩ :=
      BaselineLayout.folder_or_report_of_get? h hsep hprepared hrun.accounted (by simp) hget
    · cases hfile
    · obtain ⟨rfl, rfl⟩ := hcases kind'' case hcase
      obtain ⟨hkind, rfl⟩ : kind'.folder = kind''.folder ∧ name' = baselineFileName case := by
        simpa using hnames
      exact ⟨Kind.folder_injective hkind, rfl⟩
  obtain ⟨bytes, hbytes⟩ : ∃ bytes, ∀ bytes', run.files.get?
      (layout.generated.place ++ [kind.folder, name]) = some (.file bytes') → bytes' = bytes := by
    rcases run.files.get? (layout.generated.place ++ [kind.folder, name]) with - | - | bytes
    · exact ⟨.empty, nofun⟩
    · exact ⟨.empty, nofun⟩
    · exact ⟨bytes, fun _ heq => (Entry.file.inj (Option.some.inj heq)).symm⟩
  refine ⟨_, layout.approves_put hsep hrun.world bytes hname hopen hfolder hfree
    fun kind' name' bytes' hget => ?_⟩
  obtain ⟨rfl, rfl⟩ := hplace kind' name' bytes' hget
  exact ⟨rfl, rfl, hbytes bytes' hget⟩

/-- The text of the report on a case, if it has one. -/
def GrammarRegistry.reportText? (registry : GrammarRegistry σ) (files : FileSystem) (case : Path) :
    Option String :=
  (files.answer (Storage.readText case)).toOption.bind fun text =>
    (registry.report case text).toOption.map Report.text

theorem GrammarRegistry.Generates.reportText?_eq {kind : Kind} {case : Path} {report : Report}
    (h : registry.Generates layout files kind case report) :
    registry.reportText? files case = some report.text := by
  obtain ⟨text, hread, hmade⟩ := h.made
  rw [reportText?, hread]
  change (registry.report case text).toOption.map Report.text = _
  rw [hmade]
  rfl

theorem GrammarRegistry.exists_generates (layout : BaselineLayout) (kind : Kind) {case : Path}
    {text : String}
    (h : registry.reportText? files case = some text)
    (hroom : (layout.generated.join ⟨kind.folder⟩).HasRoomFor (baselineFileName case)) :
    ∃ report, registry.Generates layout files kind case report ∧ report.text = text := by
  obtain ⟨read, hread, hreport⟩ := Option.bind_eq_some_iff.1 h
  obtain ⟨report, hmade, rfl⟩ := Option.map_eq_some_iff.1 hreport
  exact ⟨report, ⟨⟨read, toOption_eq_some_iff.1 hread, toOption_eq_some_iff.1 hmade⟩, hroom⟩, rfl⟩

theorem GrammarRegistry.Consistent.of_reportText? {text? : Option String}
    (h : ∀ kind case, layout.IsCase files kind case → registry.reportText? files case = text?) :
    registry.Consistent layout files := by
  intro kind case case' report report' hcase hcase' hreport hreport' _
  have htext := hreport.reportText?_eq.symm.trans (h kind case hcase)
  exact Option.some.inj
    (htext.trans ((h kind case' hcase').symm.trans hreport'.reportText?_eq))

/-- A project with two programs whose reports share a name, and the texts of these. -/
def sharedName (text text' : String) : FileSystem :=
  ⟨[(["cases"], .folder), (["cases", "source"], .folder),
    (["cases", "source", "a.4gl"], .file text.toUTF8),
    (["cases", "source", "a.txt"], .file text'.toUTF8),
    (["baselines"], .folder), (["baselines", "source"], .folder)]⟩

/-- Where the two reports are the same they can be approved together. -/
theorem approvalPasses_sharedName :
    TaskPool.EndsIn (SuiteRun.body lineRegistry (.under ⟨""⟩))
      (fun run => ∃ approved, (BaselineLayout.under ⟨""⟩).Approves run.files approved)
      (SuiteRun.begin (.under ⟨""⟩) (sharedName "main" "main")) ∧
    lineRegistry.ApprovalPasses (.under ⟨""⟩) (sharedName "main" "main") := by
  have hwell : (sharedName "main" "main").WellFormed := by decide +kernel
  have hready : (BaselineLayout.under ⟨""⟩).Recreatable (sharedName "main" "main") := by
    unfold BaselineLayout.Recreatable
    decide +kernel
  have hsep := BaselineLayout.separate_under
  have hfree : (sharedName "main" "main").hasFolder ((BaselineLayout.under ⟨""⟩).baselines.place ++
      [Kind.source.folder] ++ ["a.baseline.txt"]) = false := by decide +kernel
  refine ⟨SuiteRun.endsIn_approvable lineRegistry hwell hsep hready .source "a.baseline.txt"
    (by decide +kernel) ⟨by decide +kernel, by decide +kernel, by decide +kernel⟩
    (hasFolder_iff.1 (by decide +kernel)) (fun hfolder => ?_)
    (BaselineLayout.forall_case_of_names hwell (by decide +kernel)), ?_⟩
  · rw [hasFolder_iff.2 hfolder] at hfree
    cases hfree
  · exact GrammarRegistry.approvalPasses_of_consistent lineRegistry hwell hsep hready
      (.of_reportText? (BaselineLayout.forall_case_of_names hwell (P := fun _ case =>
        lineRegistry.reportText? (sharedName "main" "main") case =
          lineRegistry.reportText? (sharedName "main" "main") ⟨"cases/source/a.4gl"⟩)
        (by decide +kernel)))

/-- Of two reports that share a name only one is left to be approved. -/
theorem not_approvalPasses_sharedName : (sharedName "main" "exit").WellFormed ∧
    (BaselineLayout.under ⟨""⟩).Separate ∧
    (BaselineLayout.under ⟨""⟩).Recreatable (sharedName "main" "exit") ∧
    ¬ lineRegistry.ApprovalPasses (.under ⟨""⟩) (sharedName "main" "exit") := by
  have hwell : (sharedName "main" "exit").WellFormed := by decide +kernel
  have hready : (BaselineLayout.under ⟨""⟩).Recreatable (sharedName "main" "exit") := by
    unfold BaselineLayout.Recreatable
    decide +kernel
  have hsep := BaselineLayout.separate_under
  have hfree : (sharedName "main" "exit").hasFolder ((BaselineLayout.under ⟨""⟩).baselines.place ++
      [Kind.source.folder] ++ ["a.baseline.txt"]) = false := by decide +kernel
  refine ⟨hwell, hsep, hready, fun hpasses => ?_⟩
  have happrovable := SuiteRun.endsIn_approvable lineRegistry hwell hsep hready
    .source "a.baseline.txt" (by decide +kernel)
    ⟨by decide +kernel, by decide +kernel, by decide +kernel⟩ (hasFolder_iff.1 (by decide +kernel))
    (fun hfolder => by rw [hasFolder_iff.2 hfolder] at hfree; cases hfree)
    (BaselineLayout.forall_case_of_names hwell (by decide +kernel))
  have hconsistent := GrammarRegistry.consistent_of_approvalPasses hwell hsep hready happrovable hpasses
  have hreports : ∀ case ∈ [(⟨"cases/source/a.4gl"⟩ : Path), ⟨"cases/source/a.txt"⟩],
      (lineRegistry.reportText? (sharedName "main" "exit") case).isSome = true := by decide +kernel
  obtain ⟨text, htext⟩ := Option.isSome_iff_exists.1 (hreports ⟨"cases/source/a.4gl"⟩ (by simp))
  obtain ⟨text', htext'⟩ := Option.isSome_iff_exists.1 (hreports ⟨"cases/source/a.txt"⟩ (by simp))
  obtain ⟨report, hreport, rfl⟩ := GrammarRegistry.exists_generates (.under ⟨""⟩) .source htext
    (by decide +kernel)
  obtain ⟨report', hreport', rfl⟩ := GrammarRegistry.exists_generates (.under ⟨""⟩) .source htext'
    (by decide +kernel)
  have hsame := hconsistent .source _ _ report report'
    ⟨"a.4gl", by decide +kernel, by decide +kernel, by decide +kernel⟩
    ⟨"a.txt", by decide +kernel, by decide +kernel, by decide +kernel⟩ hreport hreport'
    (by decide +kernel)
  have hdiffer : lineRegistry.reportText? (sharedName "main" "exit") ⟨"cases/source/a.4gl"⟩ ≠
      lineRegistry.reportText? (sharedName "main" "exit") ⟨"cases/source/a.txt"⟩ := by
    decide +kernel
  rw [htext, htext'] at hdiffer
  exact hdiffer (congrArg some hsame)

end HighlightGrammar

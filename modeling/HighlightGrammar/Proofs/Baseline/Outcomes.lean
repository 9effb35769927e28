import HighlightGrammar.Proofs.Baseline.Cases
import HighlightGrammar.Proofs.Baseline.Independence

/-!
# What becomes of a case

A case comes to its end in one of seven ways, and which one it is can be told from the files as they
were before the run. It writes its report, if there is one, and nothing else. -/
namespace HighlightGrammar

open FileSystem
open HighlightGrammar.Path (IsName IsFileName)

namespace GrammarRegistry

variable {σ : Type}

/-- The case has this report, and there is room for the file of the report. -/
structure Generates (registry : GrammarRegistry σ) (layout : BaselineLayout) (files : FileSystem)
    (kind : Kind) (case : Path) (report : Report) : Prop where
  made : ∃ text, files.answer (Storage.readText case) = .ok text ∧
    registry.report case text = .ok report
  room : (layout.generated.join ⟨kind.folder⟩).HasRoomFor (baselineFileName case)

/-- The ways in which a case stops before its report has been compared. -/
inductive Stops (registry : GrammarRegistry σ) (layout : BaselineLayout) (files : FileSystem)
    (kind : Kind) (case : Path) : BaselineError → Prop where
  | read {error} (unread : files.answer (Storage.readText case) = .error error) :
      Stops registry layout files kind case (.storage case error)
  | report {text error} (read : files.answer (Storage.readText case) = .ok text)
      (unmade : registry.report case text = .error error) :
      Stops registry layout files kind case error
  | write {text report} (read : files.answer (Storage.readText case) = .ok text)
      (made : registry.report case text = .ok report)
      (full : ¬ (layout.generated.join ⟨kind.folder⟩).HasRoomFor (baselineFileName case)) :
      Stops registry layout files kind case
        (.storage (layout.generatedFile kind (baselineFileName case)) .nameTooLong)
  | approved {report error} (generates : registry.Generates layout files kind case report)
      (there : files.kind? (layout.baselineFile kind (baselineFileName case)) ≠ none)
      (unread : files.answer (Storage.readText (layout.baselineFile kind (baselineFileName case))) =
        .error error) : Stops registry layout files kind case
          (.storage (layout.baselineFile kind (baselineFileName case)) error)

/-- How a case ends, told by the files before the run. -/
inductive Ends (registry : GrammarRegistry σ) (layout : BaselineLayout) (files : FileSystem)
    (kind : Kind) (case : Path) : Except BaselineError Unit → Prop where
  | stops {error} (h : registry.Stops layout files kind case error) :
      Ends registry layout files kind case (.error error)
  | missing {report} (generates : registry.Generates layout files kind case report)
      (absent : files.kind? (layout.baselineFile kind (baselineFileName case)) = none) :
      Ends registry layout files kind case (.error (.missing (baselineFileName case)))
  | mismatch {report approved} (generates : registry.Generates layout files kind case report)
      (read : files.answer (Storage.readText (layout.baselineFile kind (baselineFileName case))) =
        .ok approved) (differs : approved ≠ report.text) :
      Ends registry layout files kind case (.error (.mismatch (baselineFileName case)))
  | ok {report} (generates : registry.Generates layout files kind case report)
      (read : files.answer (Storage.readText (layout.baselineFile kind (baselineFileName case))) =
        .ok report.text) : Ends registry layout files kind case (.ok ())

end GrammarRegistry

theorem kind?_of_answer_readText {files : FileSystem} {path : Path} {text : String}
    (h : files.answer (Storage.readText path) = .ok text) : files.kind? path ≠ none := by
  rw [answer_readText, bind_eq_ok_iff] at h
  obtain ⟨bytes, hbytes, -⟩ := h
  rw [readBytes, bind_eq_ok_iff] at hbytes
  obtain ⟨⟨place, entry⟩, hlookup, -⟩ := hbytes
  rw [kind?, hlookup]
  exact Option.some_ne_none _

/-- What the comparison of a report with its approved copy comes to. -/
def BaselineLayout.comparison (layout : BaselineLayout) (files : FileSystem) (kind : Kind)
    (file generated : String) : Except BaselineError Unit := do
  let path := layout.baselineFile kind file
  if (files.kind? path).isSome then
    let approved ← (files.answer (Storage.readText path)).mapError (.storage path)
    if approved = generated then return else throw (.mismatch file)
  else throw (.missing file)

section Comparison

variable {layout : BaselineLayout} {files : FileSystem} {kind : Kind} {file generated : String}

theorem BaselineLayout.comparison_of_absent
    (habsent : files.kind? (layout.baselineFile kind file) = none) :
    layout.comparison files kind file generated = .error (.missing file) := by
  rw [comparison, habsent]
  rfl

theorem BaselineLayout.comparison_of_unread {error : StorageError}
    (hthere : files.kind? (layout.baselineFile kind file) ≠ none)
    (hread : files.answer (Storage.readText (layout.baselineFile kind file)) = .error error) :
    layout.comparison files kind file generated =
      .error (.storage (layout.baselineFile kind file) error) := by
  rw [comparison, if_pos (Option.isSome_iff_ne_none.2 hthere), hread]
  rfl

theorem BaselineLayout.comparison_of_approved {approved : String}
    (hread : files.answer (Storage.readText (layout.baselineFile kind file)) = .ok approved) :
    layout.comparison files kind file generated =
      if approved = generated then .ok () else .error (.mismatch file) := by
  have hthere : (files.kind? (layout.baselineFile kind file)).isSome = true :=
    Option.isSome_iff_ne_none.2 (kind?_of_answer_readText hread)
  have hfound : (Except.ok approved : Except StorageError String).mapError
      (BaselineError.storage (layout.baselineFile kind file)) = .ok approved := rfl
  rw [comparison, if_pos hthere, hread, hfound, ok_bind]
  rfl

end Comparison

namespace GrammarRegistry

variable {σ : Type}

/-- The end of a case, computed from the files before the run. -/
def expectedResult (registry : GrammarRegistry σ) (layout : BaselineLayout) (files : FileSystem)
    (kind : Kind) (case : Path) : Except BaselineError Unit := do
  let text ← (files.answer (Storage.readText case)).mapError (.storage case)
  let report ← registry.report case text
  if (layout.generated.join ⟨kind.folder⟩).HasRoomFor (baselineFileName case) then
    layout.comparison files kind (baselineFileName case) report.text
  else throw (.storage (layout.generatedFile kind (baselineFileName case)) .nameTooLong)

/-- The report that a case writes, if it writes one. -/
def reportPuts (registry : GrammarRegistry σ) (layout : BaselineLayout) (files : FileSystem)
    (kind : Kind) (case : Path) : List Put :=
  match (files.answer (Storage.readText case)).mapError (.storage case) >>= registry.report case with
  | .ok report =>
    if (layout.generated.join ⟨kind.folder⟩).HasRoomFor (baselineFileName case) then
      [(layout.generated.place ++ [kind.folder] ++ [baselineFileName case],
        .file report.text.toUTF8)]
    else []
  | .error _ => []

variable {registry : GrammarRegistry σ} {layout : BaselineLayout} {files : FileSystem} {kind : Kind}
  {case : Path}

theorem Generates.unique {report report' : Report}
    (h : registry.Generates layout files kind case report)
    (h' : registry.Generates layout files kind case report') : report = report' := by
  obtain ⟨text, hread, hreport⟩ := h.made
  obtain ⟨text', hread', hreport'⟩ := h'.made
  obtain rfl := Except.ok.inj (hread.symm.trans hread')
  exact Except.ok.inj (hreport.symm.trans hreport')

theorem mem_reportPuts_iff {put : Put} : put ∈ registry.reportPuts layout files kind case ↔
    ∃ report, registry.Generates layout files kind case report ∧
      put = (layout.generated.place ++ [kind.folder] ++ [baselineFileName case],
        .file report.text.toUTF8) := by
  unfold reportPuts
  constructor
  · intro hput
    split at hput
    · next report hreport =>
      split at hput
      · next hroom =>
        obtain ⟨text, hread, hmade⟩ := bind_eq_ok_iff.1 hreport
        exact ⟨report, ⟨⟨text, mapError_eq_ok_iff.1 hread, hmade⟩, hroom⟩, List.mem_singleton.1 hput⟩
      · cases hput
    · cases hput
  · rintro ⟨report, ⟨⟨text, hread, hmade⟩, hroom⟩, rfl⟩
    have hreport : (files.answer (Storage.readText case)).mapError (.storage case) >>=
        registry.report case = .ok report :=
      bind_eq_ok_iff.2 ⟨text, mapError_eq_ok_iff.2 hread, hmade⟩
    rw [hreport]
    dsimp only
    rw [if_pos hroom]
    exact List.mem_singleton_self _

theorem expectedResult_of_read {text : String}
    (hread : files.answer (Storage.readText case) = .ok text) :
    registry.expectedResult layout files kind case = registry.report case text >>= fun report =>
      if (layout.generated.join ⟨kind.folder⟩).HasRoomFor (baselineFileName case) then
        layout.comparison files kind (baselineFileName case) report.text
      else .error (.storage (layout.generatedFile kind (baselineFileName case)) .nameTooLong) := by
  have hfound : (Except.ok text : Except StorageError String).mapError (BaselineError.storage case) =
      .ok text := rfl
  rw [expectedResult, hread, hfound, ok_bind]
  rfl

section Made

variable {text : String} {report : Report} (hread : files.answer (Storage.readText case) = .ok text)
  (hmade : registry.report case text = .ok report)

include hread hmade

theorem expectedResult_of_made : registry.expectedResult layout files kind case =
    if (layout.generated.join ⟨kind.folder⟩).HasRoomFor (baselineFileName case) then
      layout.comparison files kind (baselineFileName case) report.text
    else .error (.storage (layout.generatedFile kind (baselineFileName case)) .nameTooLong) := by
  rw [expectedResult_of_read hread, hmade, ok_bind]

theorem reportPuts_of_made : registry.reportPuts layout files kind case =
    if (layout.generated.join ⟨kind.folder⟩).HasRoomFor (baselineFileName case) then
      [(layout.generated.place ++ [kind.folder] ++ [baselineFileName case],
        .file report.text.toUTF8)]
    else [] := by
  have hreport : (files.answer (Storage.readText case)).mapError (.storage case) >>=
      registry.report case = .ok report :=
    bind_eq_ok_iff.2 ⟨text, mapError_eq_ok_iff.2 hread, hmade⟩
  unfold reportPuts
  rewrite [hreport]
  rfl

end Made

theorem reportPuts_of_unread {error : StorageError}
    (hread : files.answer (Storage.readText case) = .error error) :
    registry.reportPuts layout files kind case = [] := by
  unfold reportPuts
  rewrite [hread]
  rfl

theorem reportPuts_of_unmade {text : String} {error : BaselineError}
    (hread : files.answer (Storage.readText case) = .ok text)
    (hunmade : registry.report case text = .error error) :
    registry.reportPuts layout files kind case = [] := by
  have hreport : (files.answer (Storage.readText case)).mapError (.storage case) >>=
      registry.report case = .error error :=
    bind_eq_error_iff.2 (Or.inr ⟨text, mapError_eq_ok_iff.2 hread, hunmade⟩)
  unfold reportPuts
  rewrite [hreport]
  rfl

theorem expectedResult_of_generates {report : Report}
    (h : registry.Generates layout files kind case report) :
    registry.expectedResult layout files kind case =
      layout.comparison files kind (baselineFileName case) report.text := by
  obtain ⟨text, hread, hmade⟩ := h.made
  rw [expectedResult_of_made hread hmade, if_pos h.room]

theorem Ends.expectedResult_eq {result : Except BaselineError Unit}
    (h : registry.Ends layout files kind case result) :
    registry.expectedResult layout files kind case = result := by
  cases h with
  | stops h =>
    cases h with
    | read unread =>
      rw [expectedResult, unread]
      rfl
    | report read unmade =>
      rewrite [expectedResult_of_read read, unmade]
      rfl
    | write read made full =>
      rw [expectedResult_of_made read made, if_neg full]
    | approved generates there unread =>
      rw [expectedResult_of_generates generates, BaselineLayout.comparison_of_unread there unread]
  | missing generates absent =>
    rw [expectedResult_of_generates generates, BaselineLayout.comparison_of_absent absent]
  | mismatch generates read differs =>
    rw [expectedResult_of_generates generates, BaselineLayout.comparison_of_approved read,
      if_neg differs]
  | ok generates read =>
    rw [expectedResult_of_generates generates, BaselineLayout.comparison_of_approved read, if_pos rfl]

theorem exists_ends (registry : GrammarRegistry σ) (layout : BaselineLayout) (files : FileSystem)
    (kind : Kind) (case : Path) : ∃ result, registry.Ends layout files kind case result := by
  cases hread : files.answer (Storage.readText case) with
  | error error => exact ⟨_, .stops (.read hread)⟩
  | ok text =>
    cases hmade : registry.report case text with
    | error error => exact ⟨_, .stops (.report hread hmade)⟩
    | ok report =>
      by_cases hroom : (layout.generated.join ⟨kind.folder⟩).HasRoomFor (baselineFileName case)
      · have hgenerates : registry.Generates layout files kind case report :=
          ⟨⟨text, hread, hmade⟩, hroom⟩
        by_cases habsent : files.kind? (layout.baselineFile kind (baselineFileName case)) = none
        · exact ⟨_, .missing hgenerates habsent⟩
        · cases happroved : files.answer
              (Storage.readText (layout.baselineFile kind (baselineFileName case))) with
          | error error => exact ⟨_, .stops (.approved hgenerates habsent happroved)⟩
          | ok approved =>
            by_cases hsame : approved = report.text
            · exact ⟨_, .ok hgenerates (hsame ▸ happroved)⟩
            · exact ⟨_, .mismatch hgenerates happroved hsame⟩
      · exact ⟨_, .stops (.write hread hmade hroom)⟩

theorem ends_iff {result : Except BaselineError Unit} :
    registry.Ends layout files kind case result ↔
      registry.expectedResult layout files kind case = result := by
  refine ⟨Ends.expectedResult_eq, ?_⟩
  rintro rfl
  obtain ⟨result, h⟩ := exists_ends registry layout files kind case
  rwa [h.expectedResult_eq]

theorem isComparison_of_report {path : Path} {text : String} {error : BaselineError}
    (h : registry.report path text = .error error) : error.isComparison = false := by
  have hfails : ∀ {kind lines}, registry.tracedBy kind lines = .error error →
      error.isComparison = false := by
    intro kind lines htraced
    cases tracedBy_eq_error_iff.1 htraced <;> rfl
  rw [report_eq] at h
  rcases bind_eq_error_iff.1 h with hmain | ⟨main, -, h⟩
  · exact hfails hmain
  · split at h
    · cases h
    · rcases bind_eq_error_iff.1 h with hother | ⟨other, -, h⟩
      · exact hfails hother
      · cases h

/-- A case that stops early fails in another way than by comparison. -/
theorem Stops.isComparison_eq {error : BaselineError}
    (h : registry.Stops layout files kind case error) : error.isComparison = false := by
  cases h with
  | read => rfl
  | report _ unmade => exact isComparison_of_report unmade
  | write => rfl
  | approved => rfl

end GrammarRegistry

/-- An outcome tells what became of its case: whether its report agrees with the approved copy, there
is no such copy, or the copy is another text, and otherwise why the case has stopped. -/
structure CaseOutcome.Tells {σ : Type} (outcome : CaseOutcome) (registry : GrammarRegistry σ)
    (layout : BaselineLayout) (files : FileSystem) : Prop where
  file : outcome.file = baselineFileName outcome.case
  ok_iff : outcome.result = .ok () ↔
    ∃ report, registry.Generates layout files outcome.kind outcome.case report ∧
      files.answer (Storage.readText (layout.baselineFile outcome.kind outcome.file)) =
        .ok report.text
  missing_iff : outcome.result = .error (.missing outcome.file) ↔
    (∃ report, registry.Generates layout files outcome.kind outcome.case report) ∧
      files.kind? (layout.baselineFile outcome.kind outcome.file) = none
  mismatch_iff : outcome.result = .error (.mismatch outcome.file) ↔
    ∃ report approved, registry.Generates layout files outcome.kind outcome.case report ∧
      files.answer (Storage.readText (layout.baselineFile outcome.kind outcome.file)) =
        .ok approved ∧ approved ≠ report.text
  stops_iff : ∀ error, error ≠ .missing outcome.file → error ≠ .mismatch outcome.file →
    (outcome.result = .error error ↔
      registry.Stops layout files outcome.kind outcome.case error)

theorem CaseOutcome.tells_expectedResult {σ : Type} (registry : GrammarRegistry σ)
    (layout : BaselineLayout) (files : FileSystem) (kind : Kind) (case : Path) :
    Tells ⟨kind, case, baselineFileName case, registry.expectedResult layout files kind case⟩
      registry layout files := by
  refine ⟨rfl, ?_, ?_, ?_, fun error hmissing hmismatch => ?_⟩ <;>
    rw [← GrammarRegistry.ends_iff] <;> dsimp only
  · constructor
    · intro hends
      cases hends with
      | ok generates read => exact ⟨_, generates, read⟩
    · rintro ⟨report, hreport, happroved⟩
      exact .ok hreport happroved
  · constructor
    · intro hends
      cases hends with
      | stops h => cases h.isComparison_eq
      | missing generates absent => exact ⟨⟨_, generates⟩, absent⟩
    · rintro ⟨⟨report, hreport⟩, habsent⟩
      exact .missing hreport habsent
  · constructor
    · intro hends
      cases hends with
      | stops h => cases h.isComparison_eq
      | mismatch generates read differs => exact ⟨_, _, generates, read, differs⟩
    · rintro ⟨report, approved, hreport, happroved, hdiffers⟩
      exact .mismatch hreport happroved hdiffers
  · constructor
    · intro hends
      cases hends with
      | stops h => exact h
      | missing => exact absurd rfl hmissing
      | mismatch => exact absurd rfl hmismatch
    · exact .stops

section Running

variable {τ σ : Type} {layout : BaselineLayout} {files found : FileSystem} {kind : Kind}
  {case : Path} {file generated : String} (h : files.WellFormed) (hsep : layout.Separate)

theorem BaselineLayout.Ready.writeBytes_generatedFile (hsep : layout.Separate)
    (hfound : layout.Ready files found)
    (hprintable : '\x00' ∉ (layout.generated.join ⟨kind.folder⟩).text.toList)
    (hname : IsName file) (bytes : ByteArray) :
    found.writeBytes (layout.generatedFile kind file) bytes =
      if (layout.generated.join ⟨kind.folder⟩).HasRoomFor file then
        .ok (found.put (layout.generated.place ++ [kind.folder] ++ [file]) (.file bytes))
      else .error .nameTooLong := by
  have hplace : (layout.generated.join ⟨kind.folder⟩).place =
      layout.generated.place ++ [kind.folder] := Path.place_join kind.isFileName_folder
  have hfolder : found.get? (layout.generated.join ⟨kind.folder⟩).place = some .folder := by
    rw [hplace, hfound.folder kind]
  have hfree : found.get? ((layout.generated.join ⟨kind.folder⟩).place ++ [file]) ≠ some .folder := by
    rw [hplace]
    exact hfound.free kind file
  have hdirect := hsep.generated_direct.join kind.isFileName_folder
  have hwrite := hfound.wellFormed.writeBytes_join hdirect hfolder hprintable hname hfree bytes
  rw [hplace] at hwrite
  exact hwrite

include h hsep

/-- The approved copy is the one that was there before the run. -/
theorem BaselineLayout.delivers_comparison (hname : IsFileName file) :
    Script.Delivers (layout.Ready files) (layout.comparison files kind file generated) [] []
      (do
        if ← ExceptT.lift (Storage.isThere (layout.baselineFile kind file)) then
          let approved ← BaselineError.at (layout.baselineFile kind file)
            (Storage.readText (layout.baselineFile kind file))
          if approved = generated then return else throw (.mismatch file)
        else throw (.missing file) : ExceptT BaselineError (Script τ) Unit).run := by
  have hplace := place_join_join layout.baselines kind hname
  have hsame : ∀ found, layout.Ready files found →
      found.get? (layout.baselineFile kind file).place =
        files.get? (layout.baselineFile kind file).place := fun found hfound =>
    hfound.baselines _ (hplace ▸ isWithin_kind_name _ kind hname)
  have hdirect := hsep.direct_baselineFile kind hname
  have hthere := Script.delivers_isThere (τ := τ) fun found hfound =>
    h.kind?_eq hfound.wellFormed hdirect (hsame found hfound)
  refine hthere.lift.run_bind ?_
  by_cases habsent : files.kind? (layout.baselineFile kind file) = none
  · rw [habsent, comparison_of_absent habsent]
    exact Script.delivers_pure _
  · rw [if_pos (Option.isSome_iff_ne_none.2 habsent)]
    have hread := (Script.delivers_readText (τ := τ) fun found hfound => h.answer_readText_eq
      hfound.wellFormed hdirect (hsame found hfound) habsent).adapt
        (BaselineError.storage (layout.baselineFile kind file))
    cases happroved : files.answer (Storage.readText (layout.baselineFile kind file)) with
    | error error =>
      rw [happroved] at hread
      rw [comparison_of_unread habsent happroved]
      exact hread.run_bind_error
    | ok approved =>
      rw [happroved] at hread
      rw [comparison_of_approved happroved]
      refine hread.run_bind ?_
      by_cases hequal : approved = generated
      · rw [if_pos hequal, if_pos hequal]
        exact Script.delivers_pure _
      · rw [if_neg hequal, if_neg hequal]
        exact Script.delivers_pure _

/-- Where there is room a report is put and compared. -/
theorem BaselineLayout.delivers_check (hname : IsName file)
    (hprintable : '\x00' ∉ (layout.generated.join ⟨kind.folder⟩).text.toList) :
    Script.Delivers (layout.Ready files)
      (if (layout.generated.join ⟨kind.folder⟩).HasRoomFor file then
        layout.comparison files kind file generated
      else .error (.storage (layout.generatedFile kind file) .nameTooLong))
      (if (layout.generated.join ⟨kind.folder⟩).HasRoomFor file then
        [(layout.generated.place ++ [kind.folder] ++ [file], .file generated.toUTF8)] else []) []
      (layout.check kind file generated : ExceptT BaselineError (Script τ) Unit).run := by
  have hwrite : ∀ found, layout.Ready files found →
      found.writeBytes (layout.generatedFile kind file) generated.toUTF8 = _ := fun found hfound =>
    hfound.writeBytes_generatedFile hsep hprintable hname _
  by_cases hroom : (layout.generated.join ⟨kind.folder⟩).HasRoomFor file
  · simp only [if_pos hroom] at hwrite ⊢
    exact ((Script.delivers_writeText hwrite).adapt
      (BaselineError.storage (layout.generatedFile kind file))).run_bind
        (delivers_comparison h hsep ⟨hname, hroom.1⟩)
  · simp only [if_neg hroom] at hwrite ⊢
    exact ((Script.delivers_writeText_error hwrite).adapt
      (BaselineError.storage (layout.generatedFile kind file))).run_bind_error

/-- Whatever else goes on, a case comes to the result that is expected of it. -/
theorem GrammarRegistry.delivers_checkCase (registry : GrammarRegistry σ)
    (hcase : layout.IsCase files kind case)
    (hprintable : '\x00' ∉ (layout.generated.join ⟨kind.folder⟩).text.toList) :
    Script.Delivers (layout.Ready files) (registry.expectedResult layout files kind case)
      (registry.reportPuts layout files kind case) []
      (registry.checkCase layout kind case : ExceptT BaselineError (Script τ) Unit).run := by
  have hread := (Script.delivers_readText (τ := τ) fun found (hfound : layout.Ready files found) =>
    hfound.answer_readText hsep h hcase).adapt (BaselineError.storage case)
  cases hanswer : files.answer (Storage.readText case) with
  | error error =>
    rw [hanswer] at hread
    rw [Ends.expectedResult_eq (.stops (.read hanswer)), reportPuts_of_unread hanswer]
    exact hread.run_bind_error
  | ok text =>
    rw [hanswer] at hread
    have hreport : Script.Delivers (layout.Ready files) (registry.report case text) [] []
        (ExceptT.mk (pure (registry.report case text)) :
          ExceptT BaselineError (Script τ) Report).run := Script.delivers_pure _
    cases hmade : registry.report case text with
    | error error =>
      rw [hmade] at hreport
      rw [Ends.expectedResult_eq (.stops (.report hanswer hmade)),
        reportPuts_of_unmade hanswer hmade]
      refine hread.run_bind_of_looks ?_
      rw [hmade]
      exact hreport.run_bind_error
    | ok report =>
      rw [hmade] at hreport
      rw [expectedResult_of_made hanswer hmade, reportPuts_of_made hanswer hmade]
      refine hread.run_bind_of_looks ?_
      rw [hmade]
      exact hreport.run_bind_of_looks
        (layout.delivers_check h hsep hcase.isName_report hprintable)

/-- The outcome of a case tells that result. -/
theorem GrammarRegistry.delivers_runCase (registry : GrammarRegistry σ)
    (hcase : layout.IsCase files kind case)
    (hprintable : '\x00' ∉ (layout.generated.join ⟨kind.folder⟩).text.toList) :
    Script.Delivers (layout.Ready files)
      ⟨kind, case, baselineFileName case, registry.expectedResult layout files kind case⟩
      (registry.reportPuts layout files kind case) []
      (registry.runCase layout kind case : Script τ CaseOutcome) := by
  have hcheck := registry.delivers_checkCase (τ := τ) h hsep hcase hprintable
  have hall := hcheck.bind (k := fun result => pure (⟨kind, case, baselineFileName case, result⟩ :
    CaseOutcome)) (Script.delivers_pure _)
  rw [List.append_nil, List.append_nil] at hall
  exact hall

end Running

end HighlightGrammar

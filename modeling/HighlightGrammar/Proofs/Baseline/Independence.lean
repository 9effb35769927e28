import HighlightGrammar.Baseline.Loading
import HighlightGrammar.Proofs.Baseline.Reports
import HighlightGrammar.Proofs.Storage.Quiet
import HighlightGrammar.Proofs.Storage.Ways

/-!
# What a document needs

A report is made from one trace, or from two if the document does not opt out. A trace that fails is
the error of the report, and the trace by the document's own grammar comes first. Each grammar is
loaded from its own file; so a fault in the other file is only met by documents that are traced by
the other grammar. -/
namespace HighlightGrammar

open FileSystem

namespace GrammarRegistry

variable {σ : Type} {registry registry' : GrammarRegistry σ}

/-- The ways in which a trace by the grammar of a kind fails. -/
inductive Fails (registry : GrammarRegistry σ) (kind : Kind) (lines : List String) :
    BaselineError → Prop where
  | unavailable {fault} (missing : registry.slot kind = .error fault) :
      Fails registry kind lines (.unavailable kind fault)
  | scan {grammar error} (loaded : registry.slot kind = .ok grammar)
      (stopped : grammar.trace lines = .error error) : Fails registry kind lines (.scan error)

theorem fails_of_isNone {kind : Kind} (lines : List String)
    (h : (registry.slot kind).toOption = none) :
    ∃ fault, registry.Fails kind lines (.unavailable kind fault) := by
  cases hslot : registry.slot kind with
  | error fault => exact ⟨fault, .unavailable hslot⟩
  | ok grammar =>
    rw [hslot] at h
    cases h

/-- The trace of lines by the grammar of a kind. -/
def tracedBy (registry : GrammarRegistry σ) (kind : Kind) (lines : List String) :
    Except BaselineError TracedSection := do
  let grammar ← registry.get kind
  return ⟨grammar.fileName, ← (grammar.trace lines).mapError .scan⟩

theorem tracedBy_eq_error_iff {kind : Kind} {lines : List String} {error : BaselineError} :
    registry.tracedBy kind lines = .error error ↔ registry.Fails kind lines error := by
  simp only [tracedBy, get, bind_eq_error_iff, mapError_eq_error_iff, mapError_eq_ok_iff]
  constructor
  · rintro (⟨fault, hslot, rfl⟩ | ⟨grammar, hslot, ⟨stopped, htrace, rfl⟩ | ⟨trace, -, hnever⟩⟩)
    · exact .unavailable hslot
    · exact .scan hslot htrace
    · cases hnever
  · rintro (hslot | ⟨hslot, htrace⟩)
    · exact Or.inl ⟨_, hslot, rfl⟩
    · exact Or.inr ⟨_, hslot, Or.inl ⟨_, htrace, rfl⟩⟩

theorem tracedBy_eq_ok_iff {kind : Kind} {lines : List String} {part : TracedSection} :
    registry.tracedBy kind lines = .ok part ↔ registry.Traces kind lines part := by
  rw [tracedBy, bind_eq_ok_iff]
  simp only [bind_eq_ok_iff, get, mapError_eq_ok_iff, pure, Except.pure, Except.ok.injEq]
  constructor
  · rintro ⟨grammar, hslot, trace, htrace, rfl⟩
    exact ⟨grammar, hslot, rfl, htrace⟩
  · rintro ⟨grammar, hslot, hname, htrace⟩
    exact ⟨grammar, hslot, part.trace, htrace, by rw [hname]⟩

theorem tracedBy_congr {kind : Kind} (h : registry.slot kind = registry'.slot kind)
    (lines : List String) : registry.tracedBy kind lines = registry'.tracedBy kind lines := by
  rw [tracedBy, tracedBy, get, get, h]

/-- A report is put together from the traces that the document asks for. -/
theorem report_eq (registry : GrammarRegistry σ) (path : Path) (text : String) :
    registry.report path text = (do
      let lines := Text.splitLines text
      let main ← registry.tracedBy (Kind.forFile path) lines
      if optedOut lines then return ⟨lines, main.render, none, .agreement⟩
      else
        let other ← registry.tracedBy (Kind.forFile path).complement lines
        let verdict := main.trace.compare other.trace
        return ⟨lines, main.render, verdict.secondary.map (⟨other.fileName, ·⟩), verdict⟩) := by
  have hother : (GrammarSelection.of path (Text.splitLines text)).other =
      if optedOut (Text.splitLines text) then none else some (Kind.forFile path).complement := rfl
  have hmain : (GrammarSelection.of path (Text.splitLines text)).main = Kind.forFile path := rfl
  simp only [report, tracedBy, hother, hmain, bind_assoc, pure_bind]
  cases optedOut (Text.splitLines text) <;> rfl

variable {path : Path} {text : String}

/-- The first error comes from the document's own grammar. -/
theorem report_of_fails {error : BaselineError}
    (h : registry.Fails (Kind.forFile path) (Text.splitLines text) error) :
    registry.report path text = .error error := by
  rw [report_eq]
  exact bind_eq_error_iff.2 (Or.inl (tracedBy_eq_error_iff.2 h))

/-- Without the trace by the other grammar there is no report, unless the document opts out. -/
theorem report_of_other_fails {main : TracedSection} {error : BaselineError}
    (hmain : registry.Traces (Kind.forFile path) (Text.splitLines text) main)
    (hout : optedOut (Text.splitLines text) = false)
    (h : registry.Fails (Kind.forFile path).complement (Text.splitLines text) error) :
    registry.report path text = .error error := by
  rw [report_eq]
  refine bind_eq_error_iff.2 (Or.inr ⟨main, tracedBy_eq_ok_iff.2 hmain, ?_⟩)
  rw [hout]
  exact bind_eq_error_iff.2 (Or.inl (tracedBy_eq_error_iff.2 h))

/-- A document that opts out is reported on by its own grammar alone. -/
theorem report_congr_of_optedOut (hslot : registry.slot (Kind.forFile path) =
    registry'.slot (Kind.forFile path)) (hout : optedOut (Text.splitLines text) = true) :
    registry.report path text = registry'.report path text := by
  simp only [report_eq, hout, if_true, tracedBy_congr hslot]

end GrammarRegistry

section

variable [MatcherEngine] {σ : Type} {settings : Settings} {backend : ScannerBackend σ}
  {files files' : FileSystem}

theorem quiet_loadCompiled (settings : Settings) (backend : ScannerBackend σ) (kind : Kind) :
    Quiet (settings.loadCompiled backend kind :
      ExceptT LoadFault (StateM FileSystem) (LoadedGrammar σ)).run :=
  quiet_run_bind (quiet_adapt (GrammarLoader.quiet_loadFile _ _) _) fun _ =>
    quiet_run_bind (quiet_pure _) fun _ => quiet_pure _

/-- A compiled grammar is told by the text of its file. -/
theorem answer_loadCompiled_congr {kind : Kind}
    (h : files.AgreeAlong files' (settings.grammar kind).source) :
    files.answer (settings.loadCompiled backend kind) =
      files'.answer (settings.loadCompiled backend kind) := by
  have hgrammar : files.answer (settings.loadGrammar kind) =
      files'.answer (settings.loadGrammar kind) := by
    simp only [Settings.loadGrammar, GrammarLoader.answer_loadFile, answer_readText, h.readBytes_eq]
  have hquiet : Quiet ((settings.loadGrammar kind :
      ExceptT GrammarError (StateM FileSystem) Grammar).adapt LoadFault.grammar).run :=
    quiet_adapt (GrammarLoader.quiet_loadFile _ _) _
  rw [Settings.loadCompiled, answer_bind hquiet, answer_bind hquiet, answer_adapt, answer_adapt,
    hgrammar]
  congr 1
  funext grammar
  cases backend.compile kind grammar <;> rfl

namespace GrammarRegistry

/-- The registry that is loaded from files. -/
def loadedFrom (settings : Settings) (backend : ScannerBackend σ) (files : FileSystem) :
    GrammarRegistry σ := ((load settings backend : StateM FileSystem _).run files).1

theorem slot_loadedFrom (kind : Kind) : (loadedFrom settings backend files).slot kind =
    files.answer (settings.loadCompiled backend kind) := by
  have hrun : (load settings backend : StateM FileSystem _).run files =
      (⟨files.answer (settings.loadCompiled backend .source),
        files.answer (settings.loadCompiled backend .form)⟩, files) := by
    rw [load, (quiet_loadCompiled settings backend .source).run_bind,
      (quiet_loadCompiled settings backend .form).run_bind]
    rfl
  rw [loadedFrom, hrun]
  cases kind <;> rfl

/-- The file of the other grammar plays no part for a document that opts out, nor for one that its
own grammar fails on; otherwise a fault of the other grammar is the error of the report. -/
theorem report_loadedFrom_of_differ {path : Path} {text : String}
    (havoids : (settings.grammar (Kind.forFile path)).source.Avoids
      (settings.grammar (Kind.forFile path).complement).source)
    (hdiffer : ∀ place ≠ (settings.grammar (Kind.forFile path).complement).source.place,
      files.get? place = files'.get? place) :
    (optedOut (Text.splitLines text) = true →
      (loadedFrom settings backend files).report path text =
        (loadedFrom settings backend files').report path text) ∧
    (∀ error, (loadedFrom settings backend files).Fails (Kind.forFile path)
        (Text.splitLines text) error →
      (loadedFrom settings backend files).report path text = .error error ∧
        (loadedFrom settings backend files').report path text = .error error) ∧
    (optedOut (Text.splitLines text) = false → ∀ main error,
      (loadedFrom settings backend files).Traces (Kind.forFile path) (Text.splitLines text) main →
      (loadedFrom settings backend files).Fails (Kind.forFile path).complement
        (Text.splitLines text) error →
      (loadedFrom settings backend files).report path text = .error error) := by
  have hslot : (loadedFrom settings backend files).slot (Kind.forFile path) =
      (loadedFrom settings backend files').slot (Kind.forFile path) := by
    rw [slot_loadedFrom, slot_loadedFrom, answer_loadCompiled_congr (.of_avoids havoids hdiffer)]
  refine ⟨report_congr_of_optedOut hslot, fun error hfails => ⟨report_of_fails hfails, ?_⟩,
    fun hout main error hmain hfails => report_of_other_fails hmain hout hfails⟩
  have hfails' := tracedBy_eq_error_iff.2 hfails
  rw [tracedBy_congr hslot] at hfails'
  exact report_of_fails (tracedBy_eq_error_iff.1 hfails')

end GrammarRegistry

end

namespace GrammarRegistry

attribute [local instance] MatcherEngine.unlimited

/-- Settings of a project that sets nothing but names its grammars. -/
def plainSettings : Settings where
  level := "info"
  outputFolder := ⟨"."⟩
  format := .plist
  source := ⟨⟨"4GL.YAML-tmLanguage"⟩, ⟨"4GL.tmLanguage"⟩, .empty⟩
  form := ⟨⟨"PER.YAML-tmLanguage"⟩, ⟨"PER.tmLanguage"⟩, .empty⟩
  baselines := ⟨⟨"cases"⟩, ⟨"baselines"⟩, ⟨"generated"⟩⟩

/-- A backend that takes every line for one token. -/
def oneTokenBackend : ScannerBackend Unit :=
  ⟨fun kind _ => .ok (oneToken () (fun kind => [kind.scopeName]) kind).tokenizer⟩

/-- The files of the two grammars. -/
def grammarFiles (source form : String) : FileSystem :=
  ⟨[(["4GL.YAML-tmLanguage"], .file source.toUTF8), (["PER.YAML-tmLanguage"], .file form.toUTF8)]⟩

theorem get?_grammarFiles {place : Place} (h : place ≠ ["PER.YAML-tmLanguage"])
    (source form other : String) :
    (grammarFiles source form).get? place = (grammarFiles source other).get? place := by
  have hform : (["PER.YAML-tmLanguage"] == place) = false := by simpa using h.symm
  simp only [FileSystem.get?, Table.get?, grammarFiles, List.find?_cons, hform]

/-- With a malformed grammar of forms a program that opts out gets its report, another program the
fault of that grammar; with a malformed grammar of programs it is the fault of this one. -/
theorem report_loadedFrom_of_differ_malformed :
    (loadedFrom plainSettings oneTokenBackend (grammarFiles "{}" "[")).report ⟨"a.4gl"⟩
        "// @onlyOwnGrammar" =
      (loadedFrom plainSettings oneTokenBackend (grammarFiles "{}" "{}")).report ⟨"a.4gl"⟩
        "// @onlyOwnGrammar" ∧
    (∃ fault, (loadedFrom plainSettings oneTokenBackend (grammarFiles "[" "[")).report ⟨"a.4gl"⟩
        "main" = .error (.unavailable .source fault) ∧
      (loadedFrom plainSettings oneTokenBackend (grammarFiles "[" "{}")).report ⟨"a.4gl"⟩
        "main" = .error (.unavailable .source fault)) ∧
    ∃ fault, (loadedFrom plainSettings oneTokenBackend (grammarFiles "{}" "[")).report ⟨"a.4gl"⟩
        "main" = .error (.unavailable .form fault) := by
  have hplace : (plainSettings.grammar .form).source.place = ["PER.YAML-tmLanguage"] := by
    decide +kernel
  have havoids : (plainSettings.grammar (Kind.forFile ⟨"a.4gl"⟩)).source.Avoids
      (plainSettings.grammar (Kind.forFile ⟨"a.4gl"⟩).complement).source := by decide +kernel
  have hdiffer : ∀ source : String,
      ∀ place ≠ (plainSettings.grammar (Kind.forFile ⟨"a.4gl"⟩).complement).source.place,
        (grammarFiles source "[").get? place = (grammarFiles source "{}").get? place :=
    fun source place h => get?_grammarFiles (hplace ▸ h) source "[" "{}"
  have hsource : ((loadedFrom plainSettings oneTokenBackend (grammarFiles "[" "[")).slot
      .source).toOption = none := by decide +kernel
  have hform : ((loadedFrom plainSettings oneTokenBackend (grammarFiles "{}" "[")).slot
      .form).toOption = none := by decide +kernel
  obtain ⟨fault, hfault⟩ := fails_of_isNone (Text.splitLines "main") hsource
  obtain ⟨fault', hfault'⟩ := fails_of_isNone (Text.splitLines "main") hform
  have htraced : ((loadedFrom plainSettings oneTokenBackend (grammarFiles "{}" "[")).tracedBy
      .source (Text.splitLines "main")).toOption.isSome = true := by decide +kernel
  obtain ⟨main, hmain⟩ := Option.isSome_iff_exists.1 htraced
  have htraces := tracedBy_eq_ok_iff.1 (toOption_eq_some_iff.1 hmain)
  exact ⟨(report_loadedFrom_of_differ havoids (hdiffer "{}")).1 (by decide +kernel),
    ⟨fault, (report_loadedFrom_of_differ havoids (hdiffer "[")).2.1 _ hfault⟩,
    fault', (report_loadedFrom_of_differ havoids (hdiffer "{}")).2.2 (by decide +kernel) main _
      htraces hfault'⟩

end GrammarRegistry

end HighlightGrammar

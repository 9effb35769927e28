import HighlightGrammar.Proofs.Builds.Writing
import HighlightGrammar.Proofs.Storage.Quiet

/-!
# Building side by side

The grammars of both kinds are built one after the other in the same files. A grammar is encoded
before anything is touched, so one that cannot be leaves no trace. One that can be adds folders and
its output; neither lies where the other kind reads or writes, and folders along a way make no
difference to it. So each kind comes out as if it were built alone. -/
namespace HighlightGrammar

open FileSystem

theorem VariableTable.applyOverrides_of_isEmpty {overrides : VariableTable}
    (h : overrides.isEmpty = true) (table : VariableTable) :
    table.applyOverrides overrides = table := by
  rw [isEmpty, List.isEmpty_iff] at h
  rw [applyOverrides, byName, h]
  rfl

theorem GrammarSettings.revise_loader (settings : GrammarSettings) (table : VariableTable) :
    settings.loader.revise table = table.applyOverrides settings.overrides := by
  rw [loader, GrammarLoader.withOverrides]
  split
  · next hempty =>
    rw [VariableTable.applyOverrides_of_isEmpty hempty]
    rfl
  · rfl

namespace Settings

/-- The paths that grammars are read from and written to. -/
def grammarPaths (settings : Settings) : List Path :=
  Kind.all.flatMap fun kind => [(settings.grammar kind).source, settings.outputPath kind]

/-- The paths that grammars are read from and written to name different files, none of which lies
below another one. -/
structure Separate (settings : Settings) : Prop where
  direct : ∀ path ∈ settings.grammarPaths, path.Direct
  apart : settings.grammarPaths.Pairwise fun path other => path.place.Apart other.place
  /-- A path with a longer name names no file that could be read. It is refused for its name where
  the folders in front of that are there, and otherwise it is not found. -/
  short : ∀ kind, (settings.grammar kind).source.HasShortNames

namespace Separate

variable {settings : Settings} (h : settings.Separate)

include h

theorem direct_source (kind : Kind) : (settings.grammar kind).source.Direct :=
  h.direct _ (List.mem_flatMap.2 ⟨kind, kind.mem_all, by simp⟩)

theorem direct_output (kind : Kind) : (settings.outputPath kind).Direct :=
  h.direct _ (List.mem_flatMap.2 ⟨kind, kind.mem_all, by simp⟩)

/-- What one kind reads and writes lies apart from the output of the other. -/
theorem apart_complement (kind : Kind) :
    (settings.grammar kind.complement).source.place.Apart (settings.outputPath kind).place ∧
      (settings.outputPath kind.complement).place.Apart (settings.outputPath kind).place := by
  have hpairs : [(settings.grammar .source).source, settings.outputPath .source,
      (settings.grammar .form).source, settings.outputPath .form].Pairwise
        fun path other => path.place.Apart other.place := h.apart
  simp only [List.pairwise_cons, List.forall_mem_cons] at hpairs
  obtain ⟨⟨-, -, hsource, -⟩, ⟨hform, hboth, -⟩, -⟩ := hpairs
  cases kind with
  | source => exact ⟨hform.symm, hboth.symm⟩
  | form => exact ⟨hsource, hboth⟩

end Separate

section Building

variable [MatcherEngine]

section Stages

variable (settings : Settings) (kind : Kind) (files : FileSystem)

/-- The document of a kind is read from its file. -/
def Reads (document : Document) : Prop := ∃ text tree,
  files.answer (Storage.readText (settings.grammar kind).source) = .ok text ∧
    Yaml.read text = .ok tree ∧ Document.ofTree tree = .ok document

/-- The grammar of a kind is its document resolved with the overrides of the kind. -/
def Resolves (grammar : Grammar) : Prop := ∃ document resolver,
  settings.Reads kind files document ∧ VariableResolver.ofTable
    (document.variableTable.applyOverrides (settings.grammar kind).overrides) = .ok resolver ∧
    grammar = resolver.resolve document.body

/-- The grammar of a kind is encoded in the configured format. -/
def Encodes (grammar : Grammar) (output : String) : Prop :=
  settings.Resolves kind files grammar ∧ grammar.encode settings.format = .ok output

/-- The ways in which a build fails before it touches anything. -/
inductive Stops : GrammarError → Prop where
  | unread {fault} (h : files.answer (Storage.readText (settings.grammar kind).source) =
      .error fault) : Stops (.storage (settings.grammar kind).source fault)
  | unparsed {text error}
      (read : files.answer (Storage.readText (settings.grammar kind).source) = .ok text)
      (h : Yaml.read text = .error error) :
      Stops (.malformed (settings.grammar kind).source.text (.unreadable error))
  | misshapen {text tree error}
      (read : files.answer (Storage.readText (settings.grammar kind).source) = .ok text)
      (parsed : Yaml.read text = .ok tree) (h : Document.ofTree tree = .error error) :
      Stops (.malformed (settings.grammar kind).source.text (.shape error))
  | unresolved {document error} (read : settings.Reads kind files document)
      (h : VariableResolver.ofTable
        (document.variableTable.applyOverrides (settings.grammar kind).overrides) = .error error) :
      Stops (.invalidVariable error)
  | unencoded {grammar error} (resolved : settings.Resolves kind files grammar)
      (h : grammar.encode settings.format = .error error) : Stops (.encoding error)

/-- The grammar of a kind with its text in the configured format. -/
def encoded : Except GrammarError (Grammar × String) := do
  let grammar ← files.answer (settings.loadGrammar kind)
  let output ← (grammar.encode settings.format).mapError .encoding
  return (grammar, output)

end Stages

section

variable {settings : Settings} {kind : Kind} {files after : FileSystem}

theorem loadText_eq_ok_iff {grammar : Grammar} {origin text : String} :
    (settings.grammar kind).loader.loadText origin text = .ok grammar ↔ ∃ tree document resolver,
      Yaml.read text = .ok tree ∧ Document.ofTree tree = .ok document ∧
      VariableResolver.ofTable
        (document.variableTable.applyOverrides (settings.grammar kind).overrides) = .ok resolver ∧
      grammar = resolver.resolve document.body := by
  simp only [GrammarLoader.loadText, GrammarLoader.loadTree, GrammarLoader.resolve,
    GrammarSettings.revise_loader, bind_eq_ok_iff, mapError_eq_ok_iff, pure, Except.pure,
    Except.ok.injEq]
  constructor
  · rintro ⟨tree, hread, document, hshape, resolver, hresolver, rfl⟩
    exact ⟨tree, document, resolver, hread, hshape, hresolver, rfl⟩
  · rintro ⟨tree, document, resolver, hread, hshape, hresolver, rfl⟩
    exact ⟨tree, hread, document, hshape, resolver, hresolver, rfl⟩

theorem answer_loadGrammar_iff_resolves {grammar : Grammar} :
    files.answer (settings.loadGrammar kind) = .ok grammar ↔
      settings.Resolves kind files grammar := by
  simp only [loadGrammar, GrammarLoader.answer_loadFile_eq_ok_iff, loadText_eq_ok_iff, Resolves,
    Reads]
  constructor
  · rintro ⟨text, hread, tree, document, resolver, hparsed, hshape, hresolver, rfl⟩
    exact ⟨document, resolver, ⟨text, tree, hread, hparsed, hshape⟩, hresolver, rfl⟩
  · rintro ⟨document, resolver, ⟨text, tree, hread, hparsed, hshape⟩, hresolver, rfl⟩
    exact ⟨text, hread, tree, document, resolver, hparsed, hshape, hresolver, rfl⟩

theorem encoded_eq_ok_iff {grammar : Grammar} {output : String} :
    settings.encoded kind files = .ok (grammar, output) ↔
      settings.Encodes kind files grammar output := by
  simp only [encoded, bind_eq_ok_iff, mapError_eq_ok_iff, answer_loadGrammar_iff_resolves, Encodes,
    pure, Except.pure, Except.ok.injEq, Prod.mk.injEq]
  constructor
  · rintro ⟨grammar, hresolves, output, hencode, rfl, rfl⟩
    exact ⟨hresolves, hencode⟩
  · rintro ⟨hresolves, hencode⟩
    exact ⟨grammar, hresolves, output, hencode, rfl, rfl⟩

theorem answer_loadGrammar_eq_error_iff {error : GrammarError} :
    files.answer (settings.loadGrammar kind) = .error error ↔
      (∃ fault, files.answer (Storage.readText (settings.grammar kind).source) = .error fault ∧
        .storage (settings.grammar kind).source fault = error) ∨
      ∃ text, files.answer (Storage.readText (settings.grammar kind).source) = .ok text ∧
        (settings.grammar kind).loader.loadText (settings.grammar kind).source.text text =
          .error error := by
  simp only [loadGrammar, GrammarLoader.answer_loadFile, bind_eq_error_iff, mapError_eq_error_iff,
    mapError_eq_ok_iff]

theorem loadText_eq_error_iff {error : GrammarError} {origin text : String} :
    (settings.grammar kind).loader.loadText origin text = .error error ↔
      (∃ fault, Yaml.read text = .error fault ∧ .malformed origin (.unreadable fault) = error) ∨
      ∃ tree, Yaml.read text = .ok tree ∧
        ((∃ fault, Document.ofTree tree = .error fault ∧ .malformed origin (.shape fault) = error) ∨
        ∃ document, Document.ofTree tree = .ok document ∧ ∃ fault, VariableResolver.ofTable
          (document.variableTable.applyOverrides (settings.grammar kind).overrides) = .error fault ∧
          .invalidVariable fault = error) := by
  simp only [GrammarLoader.loadText, GrammarLoader.loadTree, GrammarLoader.resolve,
    GrammarSettings.revise_loader, bind_eq_error_iff, mapError_eq_error_iff, mapError_eq_ok_iff,
    pure, Except.pure, reduceCtorEq, and_false, exists_false, or_false]

/-- There is no other way to fail before anything is touched. -/
theorem encoded_eq_error_iff {error : GrammarError} :
    settings.encoded kind files = .error error ↔ settings.Stops kind files error := by
  simp only [encoded, bind_eq_error_iff, mapError_eq_error_iff, answer_loadGrammar_eq_error_iff,
    answer_loadGrammar_iff_resolves, loadText_eq_error_iff, pure, Except.pure, reduceCtorEq,
    and_false, exists_false, or_false]
  constructor
  · rintro ((⟨fault, hread, rfl⟩ | ⟨text, hread, ⟨fault, hparsed, rfl⟩ | ⟨tree, hparsed,
      ⟨fault, hshape, rfl⟩ | ⟨document, hshape, fault, hresolver, rfl⟩⟩⟩) |
      ⟨grammar, hresolves, fault, hencode, rfl⟩)
    · exact .unread hread
    · exact .unparsed hread hparsed
    · exact .misshapen hread hparsed hshape
    · exact .unresolved ⟨text, tree, hread, hparsed, hshape⟩ hresolver
    · exact .unencoded hresolves hencode
  · rintro (hread | ⟨hread, hparsed⟩ | ⟨hread, hparsed, hshape⟩ |
      ⟨⟨text, tree, hread, hparsed, hshape⟩, hresolver⟩ | ⟨hresolves, hencode⟩)
    · exact Or.inl (Or.inl ⟨_, hread, rfl⟩)
    · exact Or.inl (Or.inr ⟨_, hread, Or.inl ⟨_, hparsed, rfl⟩⟩)
    · exact Or.inl (Or.inr ⟨_, hread, Or.inr ⟨_, hparsed, Or.inl ⟨_, hshape, rfl⟩⟩⟩)
    · exact Or.inl (Or.inr ⟨text, hread, Or.inr ⟨tree, hparsed, Or.inr
        ⟨_, hshape, _, hresolver, rfl⟩⟩⟩)
    · exact Or.inr ⟨_, hresolves, _, hencode, rfl⟩

end

/-- What building the grammar of a kind comes to, and the files afterwards. -/
def buildAlone (settings : Settings) (kind : Kind) (files : FileSystem) :
    Except GrammarError BuiltGrammar × FileSystem :=
  (settings.buildGrammar kind : ExceptT GrammarError (StateM FileSystem) BuiltGrammar).run.run files

/-- What building the grammars of both kinds comes to, and the files afterwards. -/
def buildBoth (settings : Settings) (files : FileSystem) : List BuildOutcome × FileSystem :=
  (settings.buildGrammars : StateM FileSystem (List BuildOutcome)).run files

/-- Nothing is touched before the grammar is encoded, and then its text is written. -/
theorem buildAlone_eq (settings : Settings) (kind : Kind) (files : FileSystem) :
    settings.buildAlone kind files = match settings.encoded kind files with
      | .error error => (.error error, files)
      | .ok (grammar, output) =>
        let path := settings.outputPath kind
        let run := (writeWithFolders path output :
          ExceptT GrammarError (StateM FileSystem) Unit).run.run files
        (run.1.map fun _ => ⟨kind, path, grammar.unresolved⟩, run.2) := by
  have hload : (settings.loadGrammar kind :
      ExceptT GrammarError (StateM FileSystem) Grammar).run.run files =
        (files.answer (settings.loadGrammar kind), files) :=
    Prod.ext rfl (GrammarLoader.quiet_loadFile _ _ files)
  have hwrite : ∀ grammar : Grammar, (grammar.write (settings.outputPath kind) settings.format :
      ExceptT GrammarError (StateM FileSystem) Unit).run.run files =
        match grammar.encode settings.format with
        | .error error => (.error (.encoding error), files)
        | .ok output => (writeWithFolders (settings.outputPath kind) output :
            ExceptT GrammarError (StateM FileSystem) Unit).run.run files := by
    intro grammar
    rw [Grammar.write, run_bind]
    cases grammar.encode settings.format <;> rfl
  rw [buildAlone, buildGrammar, run_bind, hload, encoded]
  cases files.answer (settings.loadGrammar kind) with
  | error error => rfl
  | ok grammar =>
    rw [ok_bind]
    dsimp only
    rw [run_bind, hwrite]
    cases grammar.encode settings.format with
    | error error => rfl
    | ok output =>
      have hencoded : ((Except.ok output : Except EncodingError String).mapError
          GrammarError.encoding >>= fun output => pure (grammar, output)) =
            .ok (grammar, output) := rfl
      rw [hencoded]
      dsimp only
      rcases (writeWithFolders (settings.outputPath kind) output :
        ExceptT GrammarError (StateM FileSystem) Unit).run.run files with ⟨error | done, after⟩
      · rfl
      · rfl

/-- What becomes of building a grammar whose document is as it was in the original files. -/
structure Builds (settings : Settings) (kind : Kind) (original files : FileSystem)
    (result : Except GrammarError BuiltGrammar) (after : FileSystem) : Prop where
  wellFormed : after.WellFormed
  stopped : ∀ error, settings.Stops kind original error → result = .error error ∧ after = files
  written : ∀ built, result = .ok built → ∃ grammar output,
    settings.Encodes kind original grammar output ∧
      built = ⟨kind, settings.outputPath kind, grammar.unresolved⟩ ∧
      after.readBytes (settings.outputPath kind) = .ok output.toUTF8
  changes : ∀ place, (∀ built, result = .ok built → place ≠ (settings.outputPath kind).place) →
    after.get? place = files.get? place ∨
      ((∃ grammar output, settings.Encodes kind original grammar output) ∧
        place ∈ (settings.outputPath kind).way ∧ files.get? place = none ∧
        after.get? place = some .folder)

section

variable {settings : Settings} {kind : Kind} {original files after : FileSystem} {path : Path}

theorem builds_buildAlone (h : files.WellFormed) (hdirect : (settings.outputPath kind).Direct)
    (hsame : settings.encoded kind files = settings.encoded kind original) :
    settings.Builds kind original files (settings.buildAlone kind files).1
      (settings.buildAlone kind files).2 := by
  rw [buildAlone_eq, hsame]
  cases hencoded : settings.encoded kind original with
  | error error =>
    refine ⟨h, fun other hother => ?_, nofun, fun _ _ => Or.inl rfl⟩
    rw [← encoded_eq_error_iff, hencoded] at hother
    cases hother
    exact ⟨rfl, rfl⟩
  | ok grammarText =>
    obtain ⟨grammar, output⟩ := grammarText
    have hencodes := encoded_eq_ok_iff.1 hencoded
    dsimp only
    rcases hrun : (writeWithFolders (settings.outputPath kind) output :
      ExceptT GrammarError (StateM FileSystem) Unit).run.run files with ⟨result, after⟩
    have hwrites := writes_writeWithFolders h hdirect hrun
    refine ⟨hwrites.wellFormed, fun error herror => ?_, fun built hbuilt => ?_,
      fun place hplace => ?_⟩
    · rw [← encoded_eq_error_iff, hencoded] at herror
      cases herror
    · cases result with
      | error error => cases hbuilt
      | ok done =>
        exact ⟨grammar, output, hencodes, (Except.ok.inj hbuilt).symm, hwrites.written rfl⟩
    · refine (hwrites.changes place fun hok => ?_).imp_right fun hadded =>
        ⟨⟨grammar, output, hencodes⟩, hadded⟩
      subst hok
      exact hplace _ rfl

/-- What lies apart from the output finds it as it was, apart from folders on the way. -/
theorem Builds.gains {result : Except GrammarError BuiltGrammar}
    (h : settings.Builds kind original files result after) (hdirect : path.Direct)
    (houtput : (settings.outputPath kind).Direct)
    (hapart : path.place.Apart (settings.outputPath kind).place) :
    files.Gains after path ∧ after.get? path.place = files.get? path.place := by
  have houtside : ∀ place ∈ path.way, place.isAround = false →
      ∀ built, result = .ok built → place ≠ (settings.outputPath kind).place := by
    rintro place hplace haround - - rfl
    exact hapart.symm.not_prefix hdirect (Place.isWithin_self _) haround
      (hdirect.prefix_of_mem_way hplace)
  constructor
  · intro place hplace
    cases haround : place.isAround with
    | true => exact Or.inl (get?_eq_of_isAround haround _ _)
    | false =>
      exact (h.changes place (houtside place hplace haround)).imp_right fun hadded => hadded.2.2
  · cases haround : path.place.isAround with
    | true => exact get?_eq_of_isAround haround _ _
    | false =>
      refine (h.changes path.place (houtside _ path.place_mem_way haround)).resolve_right ?_
      rintro ⟨-, hmem, -⟩
      exact hapart.not_prefix houtput (Place.isWithin_self _) haround
        (houtput.prefix_of_mem_way hmem)

theorem encoded_eq_of_lookup (h : after.lookup (settings.grammar kind).source =
    files.lookup (settings.grammar kind).source) :
    settings.encoded kind after = settings.encoded kind files := by
  rw [encoded, encoded, loadGrammar, GrammarLoader.answer_loadFile, GrammarLoader.answer_loadFile,
    answer_readText, answer_readText, readBytes, readBytes, h]

/-- A kind comes out the same after the other one has been built. -/
theorem Builds.sibling {result : Except GrammarError BuiltGrammar}
    (h : settings.Builds kind files files result after) (hsep : settings.Separate)
    (hfiles : files.WellFormed) :
    settings.Builds kind.complement files after (settings.buildAlone kind.complement files).1
      (settings.buildAlone kind.complement after).2 ∧
    (settings.buildAlone kind.complement after).1 =
      (settings.buildAlone kind.complement files).1 := by
  obtain ⟨hsource, houtput⟩ := hsep.apart_complement kind
  obtain ⟨hread, hkept⟩ := h.gains (hsep.direct_source _) (hsep.direct_output kind) hsource
  obtain ⟨hwrite, hfree⟩ := h.gains (hsep.direct_output _) (hsep.direct_output kind) houtput
  have hencoded := encoded_eq_of_lookup (hread.lookup_eq hfiles h.wellFormed
    (hsep.direct_source _) (hsep.short _) hkept)
  have hresult : (settings.buildAlone kind.complement after).1 =
      (settings.buildAlone kind.complement files).1 := by
    rw [buildAlone_eq, buildAlone_eq, hencoded]
    cases settings.encoded kind.complement files with
    | error error => rfl
    | ok grammarText =>
      obtain ⟨grammar, output⟩ := grammarText
      have hwritten := answer_writeWithFolders_of_gains hwrite hfiles h.wellFormed
        (hsep.direct_output _) hfree output
      rw [answer, answer] at hwritten
      dsimp only
      rw [hwritten]
  have hbuilds := builds_buildAlone h.wellFormed (hsep.direct_output kind.complement) hencoded
  rw [hresult] at hbuilds
  exact ⟨hbuilds, hresult⟩

/-- What becomes of building the grammars of both kinds: each comes out as if it were built alone on
the files as they were. -/
structure BuildsBoth (settings : Settings) (files : FileSystem) (outcomes : List BuildOutcome)
    (after : FileSystem) : Prop where
  outcomes : outcomes = Kind.all.map fun kind => ⟨kind, (settings.buildAlone kind files).1⟩
  /-- A kind that fails before its text is there changes nothing, and the files are left as by the
  other kind alone. -/
  stopped : ∀ kind error, settings.Stops kind files error →
    settings.buildAlone kind files = (.error error, files) ∧
      after = (settings.buildAlone kind.complement files).2
  /-- A kind that succeeds leaves its text where it is written to. -/
  written : ∀ kind built, (settings.buildAlone kind files).1 = .ok built →
    ∃ grammar output, settings.Encodes kind files grammar output ∧
      built = ⟨kind, settings.outputPath kind, grammar.unresolved⟩ ∧
      after.readBytes (settings.outputPath kind) = .ok output.toUTF8
  /-- Elsewhere nothing has changed but that folders may lie on the way to an output. -/
  changes : ∀ place, (∀ kind built, (settings.buildAlone kind files).1 = .ok built →
      place ≠ (settings.outputPath kind).place) →
    after.get? place = files.get? place ∨
      ((∃ kind grammar output, settings.Encodes kind files grammar output ∧
        place ∈ (settings.outputPath kind).way) ∧
        files.get? place = none ∧ after.get? place = some .folder)

/-- The form is built after the program, in the files that this leaves. -/
theorem buildBoth_eq (settings : Settings) (files : FileSystem) : settings.buildBoth files =
    let between := (settings.buildAlone .source files).2
    ([⟨.source, (settings.buildAlone .source files).1⟩,
      ⟨.form, (settings.buildAlone .form between).1⟩], (settings.buildAlone .form between).2) := rfl

theorem buildsBoth_of_separate (hsep : settings.Separate) (h : files.WellFormed) :
    settings.BuildsBoth files (settings.buildBoth files).1 (settings.buildBoth files).2 := by
  have hsource := builds_buildAlone h (hsep.direct_output .source) rfl
  obtain ⟨hform, hresult⟩ := hsource.sibling hsep h
  have hother : Kind.source.complement = .form := rfl
  rw [hother] at hform hresult
  have halone := builds_buildAlone h (hsep.direct_output .form) rfl
  rw [buildBoth_eq]
  dsimp only
  refine ⟨?_, fun kind error hstop => ?_, fun kind built hbuilt => ?_, fun place hplace => ?_⟩
  · rw [hresult]
    rfl
  · cases kind with
    | source =>
      obtain ⟨herror, hsame⟩ := hsource.stopped error hstop
      exact ⟨Prod.ext herror hsame, by rw [hsame]; rfl⟩
    | form =>
      obtain ⟨herror, hsame⟩ := halone.stopped error hstop
      exact ⟨Prod.ext herror hsame, (hform.stopped error hstop).2⟩
  · cases kind with
    | source =>
      obtain ⟨grammar, output, hencodes, hbuilt, hread⟩ := hsource.written built hbuilt
      obtain ⟨-, hsame⟩ := hform.gains (hsep.direct_output .source) (hsep.direct_output .form)
        (hsep.apart_complement .form).2
      exact ⟨grammar, output, hencodes, hbuilt, hsource.wellFormed.readBytes_of_kept
        hform.wellFormed (hsep.direct_output .source) hsame hread⟩
    | form => exact hform.written built hbuilt
  · have hfirst := hsource.changes place (hplace .source)
    rcases hform.changes place (hplace .form) with
      hsame | ⟨⟨grammar, output, hencodes⟩, hmem, hnone, hfolder⟩
    · rw [hsame]
      exact hfirst.imp_right fun ⟨⟨grammar, output, hencodes⟩, hmem, hadded⟩ =>
        ⟨⟨.source, grammar, output, hencodes, hmem⟩, hadded⟩
    · right
      rcases hfirst with hsame | ⟨-, -, -, hthere⟩
      · rw [hsame] at hnone
        exact ⟨⟨.form, grammar, output, hencodes, hmem⟩, hnone, hfolder⟩
      · rw [hthere] at hnone
        cases hnone

end

end Building

attribute [local instance] MatcherEngine.unlimited

/-- Settings that read both grammars from one folder and write them to another one. -/
def twoFolderSettings : Settings where
  level := "info"
  outputFolder := ⟨"out/new"⟩
  format := .json
  source := ⟨⟨"in/4GL.YAML-tmLanguage"⟩, ⟨"4GL.json"⟩, .ofList [("word", "main")]⟩
  form := ⟨⟨"in/PER.YAML-tmLanguage"⟩, ⟨"PER.json"⟩, .empty⟩
  baselines := ⟨⟨"cases"⟩, ⟨"baselines"⟩, ⟨"generated"⟩⟩

/-- A grammar of programs, and one of forms that is no YAML. -/
def halfReadableFiles : FileSystem :=
  ⟨[(["in"], .folder),
    (["in", "4GL.YAML-tmLanguage"],
      .file "variables: \x7bword: x\x7d\npatterns:\n- match: '\x7b\x7bword\x7d\x7d'\n".toUTF8),
    (["in", "PER.YAML-tmLanguage"], .file "[".toUTF8)]⟩

/-- The grammar of programs is built with its override though that of forms cannot be read. -/
theorem buildsBoth_of_halfReadable :
    twoFolderSettings.BuildsBoth halfReadableFiles
      (twoFolderSettings.buildBoth halfReadableFiles).1
      (twoFolderSettings.buildBoth halfReadableFiles).2 ∧
    (twoFolderSettings.buildBoth halfReadableFiles).1.map (·.result.toOption.isSome) =
      [true, false] ∧
    ((twoFolderSettings.buildBoth halfReadableFiles).2.readBytes
      (twoFolderSettings.outputPath .source)).toOption =
        some ("\x7b\n  \"patterns\": [\n    \x7b\n      \"match\": \"main\"\n    \x7d\n" ++
          "  ]\n\x7d").toUTF8 :=
  ⟨buildsBoth_of_separate
    ⟨by decide +kernel, by decide +kernel, fun kind => by cases kind <;> decide +kernel⟩
    (by decide +kernel), by decide +kernel, by decide +kernel⟩

end Settings

end HighlightGrammar

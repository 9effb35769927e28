import HighlightGrammar.CommandLine.Run
import HighlightGrammar.Proofs.Documents.Unresolved
import HighlightGrammar.Proofs.Storage.Quiet

/-!
# The check of a project

A check only reads, so it finds both grammars in the files as they are. Where unresolved
placeholders are denied it succeeds if both grammars are loaded and nothing is left in them, and
that can be told from the documents and the variables of the project. -/
namespace HighlightGrammar

open CommandLine FileSystem

/-- The document of a kind in the files. -/
def Settings.document? (settings : Settings) (files : FileSystem) (kind : Kind) :
    Option Document := do
  let text ← (files.answer (Storage.readText (settings.grammar kind).source)).toOption
  let tree ← (Yaml.read text).toOption
  (Document.ofTree tree).toOption

section

variable [MatcherEngine]

/-- Every grammar that can be loaded has a templated document. -/
def Settings.Templated (settings : Settings) (files : FileSystem) : Prop :=
  ∀ kind document grammar, settings.document? files kind = some document →
    (settings.grammar kind).loader.resolve document = .ok grammar →
      (settings.grammar kind).loader.Templated document

theorem Settings.answer_loadGrammar_eq_ok_iff {settings : Settings} {files : FileSystem}
    {kind : Kind} {grammar : Grammar} :
    files.answer (settings.loadGrammar kind) = .ok grammar ↔
      ∃ document, settings.document? files kind = some document ∧
        (settings.grammar kind).loader.resolve document = .ok grammar := by
  rw [loadGrammar, GrammarLoader.answer_loadFile_eq_ok_iff]
  simp only [document?, Option.bind_eq_bind, Option.bind_eq_some_iff, toOption_eq_some_iff,
    GrammarLoader.loadText, bind_eq_ok_iff, mapError_eq_ok_iff,
    GrammarLoader.loadTree_eq_ok_iff]
  constructor
  · rintro ⟨text, htext, tree, htree, document, hdocument, hresolve⟩
    exact ⟨document, ⟨text, htext, tree, htree, hdocument⟩, hresolve⟩
  · rintro ⟨document, ⟨text, htext, tree, htree, hdocument⟩, hresolve⟩
    exact ⟨text, htext, tree, htree, document, hdocument, hresolve⟩

end

namespace CommandLine

/-- Printing changes no code. -/
theorem code_foldl_print {α : Type} (line : α → String) (items : List α) (outcome : Outcome) :
    (items.foldl (fun outcome item => outcome.print (line item)) outcome).code =
      outcome.code := by
  induction items generalizing outcome with
  | nil => rfl
  | cons item items ih => exact ih (outcome.print (line item))

theorem code_reportCheck (outcome : Outcome) (kind : Kind) (loaded : Except GrammarError Grammar) :
    (reportCheck outcome kind loaded).code = 0 ↔
      outcome.code = 0 ∧ ∃ grammar, loaded = .ok grammar := by
  cases loaded with
  | error error => simp [reportCheck, Outcome.fail]
  | ok grammar =>
    have hcode : (reportCheck outcome kind (.ok grammar)).code = outcome.code := by
      rw [reportCheck]
      split
      · rfl
      · exact code_foldl_print _ _ _
    rw [hcode]
    simp

theorem code_foldl_reportCheck (loaded : List (Kind × Except GrammarError Grammar))
    (outcome : Outcome) :
    (loaded.foldl (fun outcome e => reportCheck outcome e.1 e.2) outcome).code = 0 ↔
      outcome.code = 0 ∧ ∀ e ∈ loaded, ∃ grammar, e.2 = .ok grammar := by
  induction loaded generalizing outcome with
  | nil => simp
  | cons e loaded ih =>
    rw [List.foldl_cons, ih, code_reportCheck, List.forall_mem_cons, and_assoc]

/-- Placeholders are left in a grammar that has been loaded. -/
def isLeft (loaded : Kind × Except GrammarError Grammar) : Bool :=
  match loaded.2 with
  | .ok grammar => !grammar.unresolved.isEmpty
  | .error _ => false

section Checking

variable [MatcherEngine]

/-- What both kinds are loaded as. -/
def loadedIn (settings : Settings) (files : FileSystem) :
    List (Kind × Except GrammarError Grammar) :=
  Kind.all.map fun kind => (kind, files.answer (settings.loadGrammar kind))

theorem run_runCheck (settings : Settings) (files : FileSystem) :
    ((runCheck settings true : StateM FileSystem Outcome).run files).1 =
      let outcome := (loadedIn settings files).foldl
        (fun outcome e => reportCheck outcome e.1 e.2) Outcome.start
      if (loadedIn settings files).any isLeft then { outcome with code := 1 } else outcome := by
  have hkind : ∀ kind, Quiet (do
      return (kind, ← (settings.loadGrammar kind : ExceptT _ (StateM FileSystem) _).run)) :=
    fun kind => (GrammarLoader.quiet_loadFile _ _).bind fun _ => quiet_pure _
  have hall := run_mapM hkind Kind.all
  have hquiet : Quiet (Kind.all.mapM fun kind => do
      return (kind, ← (settings.loadGrammar kind : ExceptT _ (StateM FileSystem) _).run)) :=
    fun files => congrArg Prod.snd (hall files)
  rw [runCheck, hquiet.run_bind, hall]
  rfl

theorem code_runCheck (settings : Settings) (files : FileSystem) :
    ((runCheck settings true : StateM FileSystem Outcome).run files).1.code = 0 ↔
      ∀ kind, ∃ grammar, files.answer (settings.loadGrammar kind) = .ok grammar ∧
        grammar.unresolved = [] := by
  have hloaded := code_foldl_reportCheck (loadedIn settings files) Outcome.start
  have hmem : ∀ kind, (kind, files.answer (settings.loadGrammar kind)) ∈
      loadedIn settings files := fun kind => List.mem_map.2 ⟨kind, Kind.mem_all kind, rfl⟩
  have hgrammar : ∀ kind grammar, files.answer (settings.loadGrammar kind) = .ok grammar →
      (isLeft (kind, files.answer (settings.loadGrammar kind)) = false ↔
        grammar.unresolved = []) := by
    intro kind grammar hgrammar
    simp [isLeft, hgrammar]
  rw [run_runCheck]
  dsimp only
  constructor
  · intro hcode kind
    split at hcode
    · cases hcode
    · next hleft =>
      obtain ⟨grammar, hok⟩ := (hloaded.1 hcode).2 _ (hmem kind)
      refine ⟨grammar, hok, (hgrammar kind grammar hok).1 ?_⟩
      rw [List.any_eq_true, not_exists] at hleft
      simpa using fun h => hleft _ ⟨hmem kind, h⟩
  · intro hkinds
    have hnone : ¬ (loadedIn settings files).any isLeft = true := by
      rw [List.any_eq_true]
      rintro ⟨e, he, hleft⟩
      obtain ⟨kind, -, rfl⟩ := List.mem_map.1 he
      obtain ⟨grammar, hok, hresolved⟩ := hkinds kind
      rw [(hgrammar kind grammar hok).2 hresolved] at hleft
      cases hleft
    rw [if_neg hnone]
    refine hloaded.2 ⟨rfl, fun e he => ?_⟩
    obtain ⟨kind, -, rfl⟩ := List.mem_map.1 he
    obtain ⟨grammar, hok, -⟩ := hkinds kind
    exact ⟨grammar, hok⟩

/-- What a command does with its settings. -/
def runWith (settings : Settings) : Command → StateM FileSystem Outcome
  | .build _ _ _ => runBuild settings
  | .resolve path _ kind asJson => runResolve settings path kind asJson
  | .check _ denyUnresolved => runCheck settings denyUnresolved

/-- The settings of a command are read first, and reading them changes nothing. -/
theorem run_run {words : List String} {command : Command} {layers : SettingsLayers}
    (hparse : parse words = .ok command) (hlayers : layersOf command = .ok layers)
    (files : FileSystem) : (run words : StateM FileSystem Outcome).run files =
      match files.answer layers.load with
      | .error error => (Outcome.start.fail s!"Configuration error: {error.message}", files)
      | .ok settings => (runWith settings command).run files := by
  have hrun : (run words : StateM FileSystem Outcome) = runCommand command := by
    rw [run, hparse]
  have hquiet : Quiet (do
      let layers ← ExceptT.mk (pure (layersOf command))
      layers.load : ExceptT SettingsError (StateM FileSystem) Settings).run := by
    rw [hlayers]
    exact SettingsLayers.quiet_load layers
  have hanswer : ((do
      let layers ← ExceptT.mk (pure (layersOf command))
      layers.load : ExceptT SettingsError (StateM FileSystem) Settings).run.run files).1 =
        files.answer layers.load := by
    rw [hlayers]
    rfl
  rw [hrun, runCommand, hquiet.run_bind, hanswer]
  cases files.answer layers.load with
  | error error => rfl
  | ok settings => cases command <;> rfl

theorem code_run_check {words : List String} {config : Option String}
    (h : parse words = .ok (.check config true)) (files : FileSystem) :
    ((run words : StateM FileSystem Outcome).run files).1.code = 0 ↔
      ∃ settings, files.answer (configLayers config).load = .ok settings ∧
        ∀ kind, ∃ grammar, files.answer (settings.loadGrammar kind) = .ok grammar ∧
          grammar.unresolved = [] := by
  rw [run_run h rfl]
  cases files.answer (configLayers config).load with
  | error error => simp [Outcome.fail]
  | ok settings => simp [runWith, code_runCheck]

/-- The placeholders that are reported for a loaded grammar can be told from its document: those
under a path come from the texts there, and from one text where no other rule has the path. A check
that denies them succeeds exactly if both grammars of the project are loaded and none of their texts
reaches a name that stays. -/
theorem check_tells_what_is_left :
    (∀ (loader : GrammarLoader) (tree : Tree) (document : Document) (grammar : Grammar),
      Document.ofTree tree = .ok document → loader.Templated document →
        loader.resolve document = .ok grammar →
          ReportsExactly (loader.revise document.variableTable).entries document.body
            grammar.unresolved ∧
          ∀ place field text, document.body.HasField place field text →
            document.body.Slashless ∨ document.body.StandsAlone place field →
              TellsText (loader.revise document.variableTable).entries grammar.unresolved
                place.text field text) ∧
    ∀ (words : List String) (config : Option String) (files : FileSystem),
      parse words = .ok (.check config true) →
      (∀ settings, files.answer (configLayers config).load = .ok settings →
        settings.Templated files) →
        (((run words : StateM FileSystem Outcome).run files).1.code = 0 ↔
          ∃ settings, files.answer (configLayers config).load = .ok settings ∧
            ∀ kind, (∃ grammar, files.answer (settings.loadGrammar kind) = .ok grammar) ∧
              ∀ document, settings.document? files kind = some document →
                (settings.grammar kind).loader.LeavesNothing document) := by
  constructor
  · intro loader tree document grammar hread htemplated hresolve
    have hexact := GrammarLoader.reportsExactly_of_resolve htemplated hresolve
    refine ⟨hexact, fun place field text hfield halone => hexact.tellsText fun other => ?_⟩
    have hkeyed := Document.keyedThroughout_body hread
    rcases halone with hfree | halone
    · exact (hfree.standsAlone hfield).showsField_iff hkeyed hfield
    · exact halone.showsField_iff hkeyed hfield
  · intro words config files hparse htemplated
    rw [code_run_check hparse]
    refine exists_congr fun settings => and_congr_right fun hsettings => forall_congr' fun kind => ?_
    have hnothing : ∀ document grammar, settings.document? files kind = some document →
        (settings.grammar kind).loader.resolve document = .ok grammar →
        (grammar.unresolved = [] ↔ (settings.grammar kind).loader.LeavesNothing document) := by
      intro document grammar hdocument hresolve
      exact GrammarLoader.unresolved_eq_nil_iff
        (htemplated settings hsettings kind document grammar hdocument hresolve) hresolve
    simp only [Settings.answer_loadGrammar_eq_ok_iff]
    constructor
    · rintro ⟨grammar, ⟨document, hdocument, hresolve⟩, hresolved⟩
      -- The files hold one document of a kind, so it is the one that was resolved.
      refine ⟨⟨grammar, document, hdocument, hresolve⟩, fun other hother => ?_⟩
      obtain rfl : document = other := Option.some.inj (hdocument.symm.trans hother)
      exact (hnothing document grammar hdocument hresolve).1 hresolved
    · rintro ⟨⟨grammar, document, hdocument, hresolve⟩, hleaves⟩
      refine ⟨grammar, ⟨document, hdocument, hresolve⟩, ?_⟩
      exact (hnothing document grammar hdocument hresolve).2 (hleaves document hdocument)

end Checking

attribute [local instance] MatcherEngine.unlimited

/-- A pattern that leads into a cycle and to an undeclared name. -/
def loopTree : Tree := .mapping [
  (.string "patterns", .sequence [.mapping [(.string "match", .string "{{C}}")]]),
  (.string "variables", VariableResolver.loop.toTree)]

def loopDocument : Document where
  body := ⟨[], some [⟨.single "{{C}}", [], none, none, [], []⟩], none⟩
  variableTable := VariableResolver.loop

/-- Two grammars without settings, one with a variable. -/
def plainFiles : FileSystem := ⟨[
  (["4GL.YAML-tmLanguage"],
    .file "variables:\n  word: '[a-z]+'\nrepository:\n  a:\n    match: '{{Word}}'".toUTF8),
  (["PER.YAML-tmLanguage"], .file "patterns:\n- match: x".toUTF8)]⟩

theorem check_tells_what_is_left_loop : ∃ grammar,
    GrammarLoader.plain.resolve loopDocument = .ok grammar ∧
      Reaches VariableResolver.loop.entries "{{C}}".toList "d".toList ∧
      ClosesCycle VariableResolver.loop.entries ("b", "x{{a}}") ∧
      ∃ settings, plainFiles.answer (configLayers none).load = .ok settings ∧
        ∀ kind document, settings.document? plainFiles kind = some document →
          (settings.grammar kind).loader.LeavesNothing document := by
  have hresolve : GrammarLoader.plain.resolve loopDocument =
      .ok (VariableResolver.resolve (.ofVariables VariableResolver.loop.entries)
        loopDocument.body) :=
    GrammarLoader.resolve_eq_ok_iff.2
      ⟨_, VariableResolver.ofTable_unlimited _, rfl⟩
  have hvisit : (⟨⟨["patterns", "0"]⟩, .matchPattern, "{{C}}"⟩ : Visit) ∈
      loopDocument.body.visits := by decide +kernel
  have hfield := GrammarBody.mem_visits_iff.1 hvisit
  have htells := (check_tells_what_is_left.1 .plain loopTree loopDocument _ rfl (by decide +kernel)
    hresolve).2 _ _ _ hfield (.inl (by decide +kernel))
  have hunknown := (htells.undeclared "d" (by decide +kernel)).1 (by decide +kernel)
  have hcycle := (htells.declared ("b", "x{{a}}") (by decide +kernel)).1
    ⟨"B", by decide +kernel, by decide +kernel⟩
  have htemplated : ∀ settings, plainFiles.answer (configLayers none).load = .ok settings →
      settings.Templated plainFiles := by
    have hcheck : (plainFiles.answer (configLayers none).load).toOption.all (fun settings =>
        Kind.all.all fun kind => (settings.document? plainFiles kind).all fun document =>
          decide ((settings.grammar kind).loader.Templated document)) = true := by decide +kernel
    intro settings hsettings kind document _ hdocument _
    rw [toOption_eq_some_iff.2 hsettings, Option.all_some, List.all_eq_true] at hcheck
    have hkind := hcheck kind (Kind.mem_all kind)
    rw [hdocument, Option.all_some] at hkind
    exact of_decide_eq_true hkind
  obtain ⟨settings, hsettings, hkinds⟩ := (check_tells_what_is_left.2 ["check", "--deny-unresolved"]
    none plainFiles rfl htemplated).1 (by decide +kernel)
  exact ⟨_, hresolve, hunknown, hcycle.2, settings, hsettings, fun kind => (hkinds kind).2⟩

/-- A rule inside another one, and a rule whose name reads like the path of the first one. -/
def slashedTree : Tree := .mapping [(.string "repository", .mapping [
  (.string "a", .mapping [
    (.string "patterns", .sequence [.mapping [(.string "match", .string "plain")]])]),
  (.string "a/patterns/0", .mapping [(.string "match", .string "{{x}}")])])]

def slashedDocument : Document where
  body := ⟨[], none, some [
    ("a", ⟨.container, [], some [⟨.single "plain", [], none, none, [], []⟩], none, [], []⟩),
    ("a/patterns/0", ⟨.single "{{x}}", [], none, none, [], []⟩)]⟩
  variableTable := .empty

/-- A name may be reported under the path of a rule whose text does not reach it: another rule, whose
name holds slashes, has the same path. -/
theorem not_tellsText_slashed : ¬ ∀ (loader : GrammarLoader) (tree : Tree) (document : Document)
    (grammar : Grammar), Document.ofTree tree = .ok document → loader.Templated document →
      loader.resolve document = .ok grammar →
        ∀ place field text, document.body.HasField place field text →
          TellsText (loader.revise document.variableTable).entries grammar.unresolved place.text
            field text := by
  intro h
  have hvisit : (⟨⟨["repository", "a", "patterns", "0"]⟩, .matchPattern, "plain"⟩ : Visit) ∈
      slashedDocument.body.visits := by decide +kernel
  have htells := h .plain slashedTree slashedDocument _ rfl (by decide +kernel) rfl _ _ _
    (GrammarBody.mem_visits_iff.1 hvisit)
  have hreached : Reaches [] "plain".toList "x".toList :=
    (htells.undeclared "x" nofun).1 (by decide +kernel)
  have hname : "x" ∈ Placeholder.names "plain" :=
    Placeholder.mem_names_iff.2 (reaches_nil_iff.1 hreached)
  exact absurd hname (by decide +kernel)

end CommandLine
end HighlightGrammar

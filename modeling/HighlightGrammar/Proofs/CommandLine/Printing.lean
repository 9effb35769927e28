import HighlightGrammar.Proofs.CommandLine.Checking
import HighlightGrammar.Proofs.Trees.Equality
import HighlightGrammar.Proofs.Yaml.Endings

/-!
# The printed grammar

A grammar that is resolved on the command line is printed without the white space at the end of its
text, and with one line feed instead. What is printed is the text itself, and stands for the grammar
where the text does, exactly if the string that is written last keeps its end. Otherwise white space
of that string is lost. -/
namespace HighlightGrammar

open CommandLine FileSystem

namespace CommandLine

theorem printedText_eq_ok_iff {grammar : Grammar} {text : String} :
    printedText grammar false = .ok text ↔
      ∃ written, grammar.toYaml = .ok written ∧ Text.trimEnd written = text := by
  rw [printedText, mapError_eq_ok_iff]
  cases grammar.toYaml <;> simp [Except.map]

section Printing

variable [MatcherEngine]

/-- The grammar that a command finds in the files and resolves. -/
def resolved? (files : FileSystem) (path : String) (config kind : Option String) :
    Option Grammar := do
  let settings ← (files.answer (configLayers config).load).toOption
  let loader ← (loaderFor settings kind).toOption
  (files.answer (loader.loadFile ⟨path⟩)).toOption

theorem resolved?_eq_some_iff {files : FileSystem} {path : String} {config kind : Option String}
    {grammar : Grammar} : resolved? files path config kind = some grammar ↔
      ∃ settings loader, files.answer (configLayers config).load = .ok settings ∧
        loaderFor settings kind = .ok loader ∧
          files.answer (loader.loadFile ⟨path⟩) = .ok grammar := by
  simp only [resolved?, Option.bind_eq_bind, Option.bind_eq_some_iff, toOption_eq_some_iff,
    exists_and_left]

theorem run_runResolve {settings : Settings} {kind : Option String} {loader : GrammarLoader}
    (h : loaderFor settings kind = .ok loader) (path : String) (asJson : Bool)
    (files : FileSystem) :
    ((runResolve settings path kind asJson : StateM FileSystem Outcome).run files).1 =
      match (files.answer (loader.loadFile ⟨path⟩)).bind fun grammar =>
        printedText grammar asJson with
      | .ok text => Outcome.start.print text
      | .error error => Outcome.start.fail error.message := by
  have hquiet := GrammarLoader.quiet_loadFile loader ⟨path⟩
  rw [runResolve, h]
  dsimp only
  rw [hquiet.run_bind, ← answer]
  cases (files.answer (loader.loadFile ⟨path⟩)).bind fun grammar => printedText grammar asJson <;>
    rfl

section

variable {words : List String} {path : String} {config kind : Option String} {asJson : Bool}
  {files : FileSystem}

theorem run_resolve_of_eq_some {grammar : Grammar}
    (h : parse words = .ok (.resolve path config kind asJson))
    (hgrammar : resolved? files path config kind = some grammar) :
    ((run words : StateM FileSystem Outcome).run files).1 =
      match printedText grammar asJson with
      | .ok text => Outcome.start.print text
      | .error error => Outcome.start.fail error.message := by
  obtain ⟨settings, loader, hsettings, hloader, hload⟩ := resolved?_eq_some_iff.1 hgrammar
  rw [run_run h rfl, hsettings]
  dsimp only [runWith]
  rw [run_runResolve hloader, hload]
  rfl

theorem code_run_resolve_of_eq_none (h : parse words = .ok (.resolve path config kind asJson))
    (hgrammar : resolved? files path config kind = none) :
    ((run words : StateM FileSystem Outcome).run files).1.code = 1 := by
  rw [run_run h rfl]
  cases hsettings : files.answer (configLayers config).load with
  | error error => rfl
  | ok settings =>
    dsimp only [runWith]
    cases hloader : loaderFor settings kind with
    | error error =>
      rw [runResolve, hloader]
      rfl
    | ok loader =>
      rw [run_runResolve hloader]
      cases hload : files.answer (loader.loadFile ⟨path⟩) with
      | error error => rfl
      | ok grammar =>
        rw [resolved?_eq_some_iff.2 ⟨settings, loader, hsettings, hloader, hload⟩] at hgrammar
        cases hgrammar

/-- A command that resolves succeeds exactly if it finds a grammar that has a text. It prints this
text as it is exactly if the tree of the grammar keeps its end, so what is printed is then read as
the tree if the text is. -/
theorem resolve_prints_grammar (h : parse words = .ok (.resolve path config kind false))
    (files : FileSystem) :
    (((run words : StateM FileSystem Outcome).run files).1.code = 0 ↔ ∃ grammar text,
      resolved? files path config kind = some grammar ∧ grammar.toYaml = .ok text) ∧
    ∀ grammar text, resolved? files path config kind = some grammar → grammar.toYaml = .ok text →
      ((run words : StateM FileSystem Outcome).run files).1 =
          ⟨0, Text.trimEnd text ++ "\n", ""⟩ ∧
        (Text.trimEnd text ++ "\n" = text ↔ Yaml.treeKeepsEnd grammar.toTree = true) ∧
        (Yaml.treeKeepsEnd grammar.toTree = true → Yaml.read text = .ok grammar.toTree →
          Yaml.read ((run words : StateM FileSystem Outcome).run files).1.output =
            .ok grammar.toTree) := by
  have hprint : ∀ grammar text, resolved? files path config kind = some grammar →
      grammar.toYaml = .ok text → ((run words : StateM FileSystem Outcome).run files).1 =
        ⟨0, Text.trimEnd text ++ "\n", ""⟩ := by
    intro grammar text hgrammar htext
    rw [run_resolve_of_eq_some h hgrammar, printedText_eq_ok_iff.2 ⟨text, htext, rfl⟩]
    simp [Outcome.print, Outcome.start]
  constructor
  · constructor
    · intro hcode
      cases hgrammar : resolved? files path config kind with
      | none =>
        rw [code_run_resolve_of_eq_none h hgrammar] at hcode
        cases hcode
      | some grammar =>
        rw [run_resolve_of_eq_some h hgrammar] at hcode
        cases hprinted : printedText grammar false with
        | error error =>
          rw [hprinted] at hcode
          cases hcode
        | ok printed =>
          obtain ⟨text, htext, -⟩ := printedText_eq_ok_iff.1 hprinted
          exact ⟨grammar, text, rfl, htext⟩
    · rintro ⟨grammar, text, hgrammar, htext⟩
      rw [hprint grammar text hgrammar htext]
  · intro grammar text hgrammar htext
    have hends := Yaml.trimEnd_write_eq_iff (mapError_eq_ok_iff.1 htext)
    refine ⟨hprint grammar text hgrammar htext, hends, fun hkeeps hread => ?_⟩
    rw [hprint grammar text hgrammar htext, hends.2 hkeeps]
    exact hread

end

end Printing

attribute [local instance] MatcherEngine.unlimited

/-- A grammar that a kind with a variable of its own resolves to a string that ends with a line
feed. -/
def oneFeed : FileSystem := ⟨[
  (["fglg.toml"], .file "[grammars.form.variables]\nword = 'w'\n".toUTF8),
  (["g.yaml"], .file "patterns:\n- match: |\n    {{word}}\n  name: ' '\n".toUTF8)]⟩

theorem resolve_prints_grammar_oneFeed : ∃ grammar,
    resolved? oneFeed "g.yaml" none (some "form") = some grammar ∧
      Yaml.treeKeepsEnd grammar.toTree = true ∧
      Yaml.read ((run ["resolve", "-k", "form", "g.yaml"] :
        StateM FileSystem Outcome).run oneFeed).1.output = .ok grammar.toTree := by
  have hfound : (resolved? oneFeed "g.yaml" none (some "form")).isSome = true := by decide +kernel
  have hchecked : (resolved? oneFeed "g.yaml" none (some "form")).all (fun grammar =>
      decide (grammar.toYaml = .ok "patterns:\n- name: ' '\n  match: |\n    w\n" ∧
        Yaml.read "patterns:\n- name: ' '\n  match: |\n    w\n" = .ok grammar.toTree ∧
        Yaml.treeKeepsEnd grammar.toTree = true)) = true := by
    decide +kernel
  obtain ⟨grammar, hgrammar⟩ := Option.isSome_iff_exists.1 hfound
  rw [hgrammar, Option.all_some] at hchecked
  obtain ⟨htext, hread, hkeeps⟩ := of_decide_eq_true hchecked
  have hparse : parse ["resolve", "-k", "form", "g.yaml"] =
      .ok (.resolve "g.yaml" none (some "form") false) := rfl
  obtain ⟨-, -, hprinted⟩ :=
    (resolve_prints_grammar hparse oneFeed).2 grammar _ hgrammar htext
  exact ⟨grammar, hgrammar, hkeeps, hprinted hkeeps hread⟩

/-- One grammar whose last string ends with two line feeds, without settings. -/
def twoFeeds : FileSystem := ⟨[
  (["g.yaml"], .file "patterns:\n- match: |+\n    a\n\n".toUTF8)]⟩

/-- A line feed is lost: what is printed is read as another grammar, though the whole text is read
as the resolved one. -/
theorem resolve_prints_other_grammar : ∃ grammar,
    parse ["resolve", "g.yaml"] = .ok (.resolve "g.yaml" none none false) ∧
      resolved? twoFeeds "g.yaml" none none = some grammar ∧
      grammar.toYaml = .ok "patterns:\n- match: |+\n    a\n\n" ∧
      Yaml.read "patterns:\n- match: |+\n    a\n\n" = .ok grammar.toTree ∧
      ((run ["resolve", "g.yaml"] : StateM FileSystem Outcome).run twoFeeds).1 =
        ⟨0, "patterns:\n- match: |+\n    a\n", ""⟩ ∧
      Yaml.read "patterns:\n- match: |+\n    a\n" ≠ .ok grammar.toTree := by
  have hfound : (resolved? twoFeeds "g.yaml" none none).isSome = true := by decide +kernel
  have hchecked : (resolved? twoFeeds "g.yaml" none none).all (fun grammar =>
      decide (grammar.toYaml = .ok "patterns:\n- match: |+\n    a\n\n" ∧
        Yaml.read "patterns:\n- match: |+\n    a\n\n" = .ok grammar.toTree ∧
        Yaml.read "patterns:\n- match: |+\n    a\n" ≠ .ok grammar.toTree)) = true := by
    decide +kernel
  obtain ⟨grammar, hgrammar⟩ := Option.isSome_iff_exists.1 hfound
  rw [hgrammar, Option.all_some] at hchecked
  obtain ⟨htext, hwhole, hprinted⟩ := of_decide_eq_true hchecked
  exact ⟨grammar, rfl, hgrammar, htext, hwhole, by decide +kernel, hprinted⟩

end CommandLine
end HighlightGrammar

import HighlightGrammar.Proofs.Baseline.Divergences

/-!
# Reports without a second section

The second section is left out when no line diverges. Then both grammars have found the same tokens,
and every scope belongs to the other kind. No scope belongs to both kinds and every token has a
scope, so each token in the report is marked as foreign. -/
namespace HighlightGrammar

/-- A scope belongs to one kind at most: the suffixes of both are of one length and differ. -/
theorem Kind.ownsScope_complement {kind : Kind} {scope : String}
    (h : kind.complement.ownsScope scope = true) : kind.ownsScope scope = false := by
  rw [Bool.eq_false_iff]
  intro howned
  rw [ownsScope_iff] at h howned
  have hlength : kind.complement.scopeSuffix.toList.length = kind.scopeSuffix.toList.length := by
    cases kind <;> decide
  -- Of two suffixes of one text the shorter is a suffix of the longer.
  have hsuffix := List.suffix_of_suffix_length_le h howned (Nat.le_of_eq hlength)
  have hsame := hsuffix.eq_of_length hlength
  cases kind <;> exact absurd hsame (by decide)

theorem Token.ownsToken_eq_false_iff {kind : Kind} {token : Token} :
    kind.ownsToken token = false ↔ ∃ scope ∈ token.scopes, kind.ownsScope scope = false := by
  simp only [Kind.ownsToken, List.all_eq_false, Bool.not_eq_true]

theorem Kind.not_ownsToken {kind : Kind} {token : Token} (hscopes : token.scopes ≠ [])
    (h : ∀ scope ∈ token.scopes, kind.complement.ownsScope scope = true) :
    kind.ownsToken token = false := by
  obtain ⟨scope, hscope⟩ := List.exists_mem_of_ne_nil _ hscopes
  exact Token.ownsToken_eq_false_iff.2 ⟨scope, hscope, ownsScope_complement (h scope hscope)⟩

/-- Where no line diverges, the second grammar owns each scope that the first one has found. -/
theorem owned_of_divergences_eq_nil {kind : Kind} {start : Nat}
    {primary secondary : List TracedLine}
    (htexts : primary.map TracedLine.text = secondary.map TracedLine.text)
    (h : divergences kind start primary secondary = []) :
    ∀ line ∈ primary, ∀ token ∈ line.tokens, ∀ scope ∈ token.scopes,
      kind.ownsScope scope = true := by
  intro ours hours token htoken scope hscope
  obtain ⟨index, hindex, rfl⟩ := List.getElem_of_mem hours
  have hlength : primary.length = secondary.length := by
    rw [← List.length_map TracedLine.text, htexts, List.length_map]
  have htheirs : index < secondary.length := hlength ▸ hindex
  have hagree : ¬ TracedLine.Diverges kind primary[index] secondary[index] := by
    intro hdiverges
    have hmem : TracedLine.divergence kind (start + index) primary[index] secondary[index] ∈
        divergences kind start primary secondary :=
      mem_divergences_iff.2 ⟨index, _, _, List.getElem?_eq_getElem hindex,
        List.getElem?_eq_getElem htheirs, hdiverges, rfl⟩
    rw [h] at hmem
    cases hmem
  obtain ⟨hsame, hforeign⟩ := not_or.1 hagree
  have htokens : primary[index].tokens = secondary[index].tokens := Decidable.not_not.1 hsame
  rw [htokens] at htoken
  cases howns : kind.ownsScope scope with
  | true => rfl
  | false => exact absurd ⟨token, htoken, scope, hscope, howns⟩ hforeign

theorem Trace.secondary_compare_eq_none_iff {primary secondary : Trace} :
    (primary.compare secondary).secondary = none ↔
      divergences secondary.kind 0 primary.lines secondary.lines = [] := by
  rw [Trace.compare]
  split
  · next h => simpa [Verdict.agreement] using h
  · next h => simpa using h

/-- The line that names the scopes of a token and marks it as foreign. -/
def Token.markedLine (token : Token) : String :=
  token.margin ++ " ".intercalate token.scopes ++ (" " ++ foreignMark)

theorem Token.scopeLine_of_foreign {kind : Kind} {token : Token}
    (h : kind.ownsToken token = false) : token.scopeLine kind = token.markedLine := by
  rw [scopeLine, h]
  rfl

/-- How a trace is shown whose tokens are all marked. -/
def Trace.renderMarked (trace : Trace) : List String :=
  trace.lines.flatMap fun line =>
    (">" ++ line.text) :: line.tokens.flatMap fun token => [token.marker, token.markedLine]

theorem Trace.render_of_foreign {trace : Trace}
    (h : ∀ line ∈ trace.lines, ∀ token ∈ line.tokens, trace.kind.ownsToken token = false) :
    trace.render = trace.renderMarked := by
  rw [render, renderMarked, List.flatMap_def, List.flatMap_def]
  refine congrArg List.flatten (List.map_congr_left fun line hline => congrArg (List.cons _) ?_)
  rw [List.flatMap_def, List.flatMap_def]
  refine congrArg List.flatten (List.map_congr_left fun token htoken => ?_)
  rw [Token.scopeLine_of_foreign (h line hline token htoken)]

namespace GrammarRegistry

variable {σ : Type} {registry : GrammarRegistry σ} {path : Path} {text : String} {report : Report}

/-- A document that does not opt out and whose report has no second section has only foreign tokens:
its own grammar owns none of them, and each one is shown with the mark. One token without the mark
brings the second section. -/
theorem marked_of_no_secondary
    (hslots : ∀ kind grammar, registry.slot kind = .ok grammar → grammar.kind = kind)
    (hout : optedOut (Text.splitLines text) = false)
    (h : registry.report path text = .ok report) :
    ∃ main, registry.Traces (Kind.forFile path) (Text.splitLines text) main ∧
      report.main = main.render ∧
      (report.secondary = none →
        (∀ line ∈ main.trace.lines, ∀ token ∈ line.tokens,
          (Kind.forFile path).ownsToken token = false) ∧
        report.main.trace = main.trace.renderMarked) ∧
      ((∃ line ∈ main.trace.lines, ∃ token ∈ line.tokens,
        token.scopeLine main.trace.kind ≠ token.markedLine) → report.secondary.isSome) := by
  obtain ⟨main, hmain, -, hrender, hcase⟩ := report_inv h
  have hkind : ∀ {kind lines part}, registry.Traces kind lines part → part.trace.kind = kind := by
    rintro kind lines part ⟨grammar, hgrammar, -, htrace⟩
    rw [(LoadedGrammar.trace_eq_ok_iff.1 htrace).1]
    exact hslots kind grammar hgrammar
  have hforeign : report.secondary = none → ∀ line ∈ main.trace.lines, ∀ token ∈ line.tokens,
      (Kind.forFile path).ownsToken token = false := by
    intro hnone line hline token htoken
    rcases hcase with ⟨hopted, -⟩ | ⟨-, other, hother, hsecondary⟩
    · rw [hopted] at hout
      cases hout
    · have htexts := hmain.texts.trans hother.texts.symm
      rw [hnone, eq_comm, Option.map_eq_none_iff, Trace.secondary_compare_eq_none_iff,
        hkind hother] at hsecondary
      have hscopes : token.scopes ≠ [] :=
        ((Token.validate_eq_ok_iff _ _).1 (hmain.valid line hline token htoken)).2.2
      exact Kind.not_ownsToken hscopes
        (owned_of_divergences_eq_nil htexts hsecondary line hline token htoken)
  refine ⟨main, hmain, hrender, fun hnone => ⟨hforeign hnone, ?_⟩, ?_⟩
  · rw [hrender]
    refine Trace.render_of_foreign ?_
    rw [hkind hmain]
    exact hforeign hnone
  · rintro ⟨line, hline, token, htoken, hunmarked⟩
    cases hsecondary : report.secondary with
    | some part => rfl
    | none =>
      have htoken' := hforeign hsecondary line hline token htoken
      rw [← hkind hmain] at htoken'
      exact absurd (Token.scopeLine_of_foreign htoken') hunmarked

/-- Grammars of both kinds that name a form in every line. -/
def formRegistry : GrammarRegistry Unit := oneTokenRegistry () fun _ => ["text.Per"]

theorem marked_of_no_secondary_program : ∃ report main,
    formRegistry.report ⟨"main.4gl"⟩ "MAIN\nEND" = .ok report ∧ report.secondary = none ∧
      formRegistry.Traces .source ["MAIN", "END"] main ∧
      report.main.trace = main.trace.renderMarked := by
  have hslots : ∀ kind grammar, formRegistry.slot kind = .ok grammar → grammar.kind = kind := by
    intro kind grammar hgrammar
    rw [formRegistry, slot_oneTokenRegistry] at hgrammar
    exact Except.ok.inj hgrammar ▸ rfl
  have hreport : ∃ report, formRegistry.report ⟨"main.4gl"⟩ "MAIN\nEND" = .ok report ∧
      report.secondary = none := ⟨_, rfl, by decide +kernel⟩
  obtain ⟨report, hreport, hnone⟩ := hreport
  obtain ⟨main, hmain, -, hmarked, -⟩ := marked_of_no_secondary hslots (by decide +kernel) hreport
  exact ⟨report, main, hreport, hnone, hmain, (hmarked hnone).2⟩

end GrammarRegistry

end HighlightGrammar

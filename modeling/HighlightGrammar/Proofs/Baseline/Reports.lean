import HighlightGrammar.Baseline.Report
import HighlightGrammar.Proofs.Fallible

/-!
# How reports are made

A report is made from traces of the lines of its document. A trace that succeeds has the lines that
it was asked for, and tokens that lie in their lines and have scopes. -/
namespace HighlightGrammar

/-- The tokens of a line lie in it and have scopes. -/
def TracedLine.Valid (line : TracedLine) : Prop :=
  ∀ token ∈ line.tokens, token.validate line.text.length = .ok ()

namespace LoadedGrammar

variable {σ : Type} {grammar : LoadedGrammar σ}

theorem traceLine_eq_ok_iff {place next : TraceState σ} {line : TracedLine} :
    grammar.traceLine place line.text = .ok (line.tokens, next) ↔
      grammar.tokenizer.tokens place.state line.text = .ok (line.tokens, next.state) ∧ line.Valid ∧
        next.line = place.line + 1 := by
  have hvalid : (line.tokens.forM fun token =>
      (token.validate line.text.length).mapError (ScanError.atLine place.line)) = .ok () ↔
        line.Valid := by
    simp only [forM_eq_ok_iff, mapError_eq_ok_iff]
    rfl
  rw [traceLine, bind_eq_ok_iff]
  constructor
  · rintro ⟨⟨tokens, state⟩, htokens, hrest⟩
    obtain ⟨⟨⟩, hforM, hresult⟩ := bind_eq_ok_iff.1 hrest
    cases hresult
    exact ⟨mapError_eq_ok_iff.1 htokens, hvalid.1 hforM, rfl⟩
  · rintro ⟨htokens, hline, hnumber⟩
    refine ⟨(line.tokens, next.state), mapError_eq_ok_iff.2 htokens, ?_⟩
    refine bind_eq_ok_iff.2 ⟨(), hvalid.2 hline, ?_⟩
    rw [← hnumber]
    rfl

theorem texts_and_valid_of_traceFrom {place : TraceState σ} {lines : List String}
    {traced : List TracedLine} (h : grammar.traceFrom place lines = .ok traced) :
    traced.map TracedLine.text = lines ∧ ∀ line ∈ traced, line.Valid := by
  -- Only the place changes from line to line, and nothing is asked of it.
  induction lines generalizing place traced with
  | nil =>
    cases h
    exact ⟨rfl, nofun⟩
  | cons line lines ih =>
    obtain ⟨⟨tokens, next⟩, hline, hrest⟩ := bind_eq_ok_iff.1 h
    obtain ⟨others, hothers, hresult⟩ := bind_eq_ok_iff.1 hrest
    cases hresult
    obtain ⟨htexts, hvalid⟩ := ih hothers
    refine ⟨congrArg (List.cons line) htexts, ?_⟩
    have hfirst : TracedLine.Valid ⟨line, tokens⟩ := (traceLine_eq_ok_iff.1 hline).2.1
    rw [List.forall_mem_cons]
    exact ⟨hfirst, hvalid⟩

theorem trace_eq_ok_iff {lines : List String} {trace : Trace} :
    grammar.trace lines = .ok trace ↔
      trace.kind = grammar.kind ∧ grammar.traceFrom grammar.startTrace lines = .ok trace.lines := by
  rw [LoadedGrammar.trace, bind_eq_ok_iff]
  constructor
  · rintro ⟨traced, htraced, hresult⟩
    cases hresult
    exact ⟨rfl, htraced⟩
  · rintro ⟨hkind, htraced⟩
    refine ⟨trace.lines, htraced, ?_⟩
    rw [← hkind]
    rfl

end LoadedGrammar

/-- A trace with the name of the file of its grammar. -/
structure TracedSection where
  fileName : String
  trace : Trace

/-- How the section of a trace is shown. -/
def TracedSection.render (part : TracedSection) : ReportSection :=
  ⟨part.fileName, part.trace.render⟩

namespace GrammarRegistry

variable {σ : Type} {registry : GrammarRegistry σ} {path : Path} {text : String} {report : Report}

/-- A section holds the trace of lines by the grammar of a kind. -/
def Traces (registry : GrammarRegistry σ) (kind : Kind) (lines : List String)
    (part : TracedSection) : Prop :=
  ∃ grammar, registry.slot kind = .ok grammar ∧ grammar.fileName = part.fileName ∧
    grammar.trace lines = .ok part.trace

theorem Traces.texts {kind : Kind} {lines : List String} {part : TracedSection}
    (h : registry.Traces kind lines part) : part.trace.lines.map TracedLine.text = lines := by
  obtain ⟨grammar, -, -, htrace⟩ := h
  exact (LoadedGrammar.texts_and_valid_of_traceFrom (LoadedGrammar.trace_eq_ok_iff.1 htrace).2).1

theorem Traces.valid {kind : Kind} {lines : List String} {part : TracedSection}
    (h : registry.Traces kind lines part) : ∀ line ∈ part.trace.lines, line.Valid := by
  obtain ⟨grammar, -, -, htrace⟩ := h
  exact (LoadedGrammar.texts_and_valid_of_traceFrom (LoadedGrammar.trace_eq_ok_iff.1 htrace).2).2

/-- The line that comes first keeps a document from being checked against the other grammar. -/
def optedOut (lines : List String) : Bool := lines.head?.any fun line => optsOut line.toList

/-- A report shows the lines of the document and the trace by the grammar of its kind. Where the
document does not opt out, the trace by the other grammar decides what else is shown. -/
theorem report_inv (h : registry.report path text = .ok report) :
    ∃ main, registry.Traces (Kind.forFile path) (Text.splitLines text) main ∧
      report.lines = Text.splitLines text ∧ report.main = main.render ∧
      ((optedOut (Text.splitLines text) = true ∧ report.secondary = none) ∨
        (optedOut (Text.splitLines text) = false ∧
          ∃ other, registry.Traces (Kind.forFile path).complement (Text.splitLines text) other ∧
            report.secondary =
              (main.trace.compare other.trace).secondary.map (⟨other.fileName, ·⟩))) := by
  obtain ⟨grammar, hgrammar, hrest⟩ := bind_eq_ok_iff.1 h
  obtain ⟨trace, htrace, hrest⟩ := bind_eq_ok_iff.1 hrest
  have hmain : registry.Traces (Kind.forFile path) (Text.splitLines text)
      ⟨grammar.fileName, trace⟩ :=
    ⟨grammar, mapError_eq_ok_iff.1 hgrammar, rfl,
      mapError_eq_ok_iff.1 htrace⟩
  refine ⟨_, hmain, ?_⟩
  cases hout : optedOut (Text.splitLines text) with
  | true =>
    have hother : (GrammarSelection.of path (Text.splitLines text)).other = none := if_pos hout
    rw [hother] at hrest
    cases hrest
    exact ⟨rfl, rfl, Or.inl ⟨rfl, rfl⟩⟩
  | false =>
    have hother : (GrammarSelection.of path (Text.splitLines text)).other =
        some (Kind.forFile path).complement := if_neg (by rw [← optedOut, hout]; simp)
    rw [hother] at hrest
    obtain ⟨second, hsecond, hrest⟩ := bind_eq_ok_iff.1 hrest
    obtain ⟨other, hother, hresult⟩ := bind_eq_ok_iff.1 hrest
    cases hresult
    refine ⟨rfl, rfl, Or.inr ⟨rfl, ⟨second.fileName, other⟩, ⟨second, ?_, rfl, ?_⟩, rfl⟩⟩
    · exact mapError_eq_ok_iff.1 hsecond
    · exact mapError_eq_ok_iff.1 hother

end GrammarRegistry

/-- A grammar that takes every line for one token. -/
def oneToken {σ : Type} (start : σ) (scopes : Kind → List String) (kind : Kind) :
    LoadedGrammar σ where
  kind := kind
  fileName := kind.folder
  grammar := ⟨.empty⟩
  tokenizer := ⟨start, fun state line => .ok ([⟨0, line.length, scopes kind⟩], state)⟩

def oneTokenRegistry {σ : Type} (start : σ) (scopes : Kind → List String) : GrammarRegistry σ :=
  ⟨.ok (oneToken start scopes .source), .ok (oneToken start scopes .form)⟩

theorem slot_oneTokenRegistry {σ : Type} (start : σ) (scopes : Kind → List String) (kind : Kind) :
    (oneTokenRegistry start scopes).slot kind = .ok (oneToken start scopes kind) := by
  cases kind <;> rfl

end HighlightGrammar

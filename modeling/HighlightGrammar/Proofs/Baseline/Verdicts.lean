import HighlightGrammar.Proofs.Baseline.Agreement
import HighlightGrammar.Proofs.Baseline.TraceText

/-!
# What a verdict tells

Two traces of one text have its lines, so their comparison leaves no line out. It lists the lines
whose tokens differ and those in which the second grammar has named a foreign scope, in their order
and with the reason. If it lists any, the second trace is shown in full, and the lines with foreign
scopes are those with a marked token. -/
namespace HighlightGrammar

namespace Token

variable {kind : Kind} {token : Token}

/-- Exactly the foreign tokens are marked. -/
theorem scopeLine_eq_markedLine_iff :
    token.scopeLine kind = token.markedLine ↔ kind.ownsToken token = false := by
  refine ⟨fun hsame => ?_, scopeLine_of_foreign⟩
  rw [Bool.eq_false_iff]
  intro howned
  have hmark : ("" : String) ≠ " " ++ foreignMark := by decide
  rw [scopeLine, markedLine, if_pos howned] at hsame
  exact hmark ((String.append_right_inj _).1 hsame)

end Token

namespace TracedLine

variable {kind : Kind} {ours theirs : TracedLine}

/-- What is told of a line is whether its tokens differ, and the foreign scopes of the second trace
in the order in which they were named; there are some exactly if a token is marked. -/
structure Explains (kind : Kind) (ours theirs : TracedLine) (divergence : LineDivergence) :
    Prop where
  structural : divergence.structural = true ↔ ours.tokens ≠ theirs.tokens
  foreign : divergence.foreignScopes =
    (theirs.tokens.flatMap Token.scopes).filter fun scope => !kind.ownsScope scope
  marked : divergence.foreignScopes ≠ [] ↔
    ∃ token ∈ theirs.tokens, token.scopeLine kind = token.markedLine

theorem explains_divergence (index : Nat) :
    Explains kind ours theirs (divergence kind index ours theirs) where
  structural := bne_iff_ne
  foreign := rfl
  marked := by
    simp only [Token.scopeLine_eq_markedLine_iff, Token.ownsToken_eq_false_iff]
    exact foreignScopes_ne_nil_iff

end TracedLine

open TracedLine

/-- A row of a shown trace that echoes a line of the text. -/
def isEcho (row : String) : Bool := row.toList.head? == some '>'

theorem TracedLine.filter_render {kind : Kind} {line : TracedLine} :
    (line.render kind).filter isEcho = [">" ++ line.text] := by
  have hbelow : ∀ row ∈ below kind line.tokens, ¬ isEcho row = true := by
    intro row hrow
    have hblank : row.toList.head? = some ' ' := isBelow_of_mem_below row hrow
    rw [isEcho, hblank]
    decide
  have hecho : isEcho (">" ++ line.text) = true := by simp [isEcho]
  rw [show line.render kind = (">" ++ line.text) :: below kind line.tokens from rfl,
    List.filter_cons_of_pos hecho, List.filter_eq_nil_iff.2 hbelow]

/-- A shown trace echoes the lines of its text. -/
theorem Trace.filter_render (trace : Trace) :
    trace.render.filter isEcho = (trace.lines.map TracedLine.text).map (">" ++ ·) := by
  rw [render, List.filter_flatMap, List.map_map, List.map_eq_flatMap]
  simp only [TracedLine.filter_render]
  rfl

/-- What a verdict on two traces tells of the lines of their text. -/
structure Verdict.Describes (verdict : Verdict) (lines : List String) (primary secondary : Trace) :
    Prop where
  ascending : (verdict.lines.map LineDivergence.line).Pairwise (· < ·)
  within : ∀ divergence ∈ verdict.lines, divergence.line < lines.length
  /-- No line of the text is left out. -/
  complete : ∀ index text, lines[index]? = some text → ∃ ours theirs,
    primary.lines[index]? = some ours ∧ secondary.lines[index]? = some theirs ∧
    ours.text = text ∧ theirs.text = text ∧
    (index ∈ verdict.lines.map LineDivergence.line ↔ Diverges secondary.kind ours theirs) ∧
    ∀ divergence ∈ verdict.lines, divergence.line = index →
      Explains secondary.kind ours theirs divergence
  shown : verdict.secondary.isSome = true ↔ verdict.lines ≠ []
  /-- The second trace is shown as a whole. -/
  echoes : ∀ rows ∈ verdict.secondary,
    rows = secondary.render ∧ rows.filter isEcho = lines.map (">" ++ ·)

namespace Trace

variable {primary secondary : Trace}

theorem eq_render_of_mem_compare {rows : List String}
    (h : rows ∈ (primary.compare secondary).secondary) : rows = secondary.render := by
  rw [compare] at h
  split at h
  · cases h
  · exact (Option.some.inj h).symm

theorem describes_compare {lines : List String}
    (hprimary : primary.lines.map TracedLine.text = lines)
    (hsecondary : secondary.lines.map TracedLine.text = lines) :
    (primary.compare secondary).Describes lines primary secondary where
  ascending := by
    rw [lines_compare, List.pairwise_map]
    exact pairwise_divergences
  within := by
    rw [lines_compare]
    intro d hd
    obtain ⟨index, ours, _, hours, _, _, rfl⟩ := mem_divergences_iff.1 hd
    have hindex := (List.getElem?_eq_some_iff.1 hours).1
    rw [← hprimary, List.length_map]
    simpa [divergence] using hindex
  complete := by
    intro index text htext
    rw [lines_compare]
    have hours : primary.lines[index]?.map TracedLine.text = some text := by
      rw [← List.getElem?_map, hprimary, htext]
    have htheirs : secondary.lines[index]?.map TracedLine.text = some text := by
      rw [← List.getElem?_map, hsecondary, htext]
    obtain ⟨ours, hours, hsame⟩ := Option.map_eq_some_iff.1 hours
    obtain ⟨theirs, htheirs, hsame'⟩ := Option.map_eq_some_iff.1 htheirs
    refine ⟨ours, theirs, hours, htheirs, hsame, hsame', ⟨?_, ?_⟩, ?_⟩
    · intro hindex
      obtain ⟨d, hd, rfl⟩ := List.mem_map.1 hindex
      exact (diverges_of_mem_divergences hd hours htheirs).1
    · intro hdiverges
      refine List.mem_map.2 ⟨divergence secondary.kind index ours theirs, ?_, rfl⟩
      exact mem_divergences_iff.2 ⟨index, ours, theirs, hours, htheirs, hdiverges,
        by rw [Nat.zero_add]⟩
    · rintro d hd rfl
      rw [(diverges_of_mem_divergences hd hours htheirs).2]
      exact explains_divergence _
  shown := by
    rw [lines_compare, Option.isSome_iff_ne_none]
    exact not_congr secondary_compare_eq_none_iff
  echoes := by
    intro rows hrows
    obtain rfl := eq_render_of_mem_compare hrows
    exact ⟨rfl, by rw [filter_render, hsecondary]⟩

end Trace

namespace LoadedGrammar

variable {σ τ : Type} {first : LoadedGrammar σ} {second : LoadedGrammar τ}

/-- When the lines of a trace have been traced by a second grammar, the comparison of the two traces
looks at all lines of the text, tells which of them diverge and why, and shows the second trace
as a whole if any does. -/
theorem compare_describes {lines : List String} {primary secondary : Trace}
    (hfirst : first.trace lines = .ok primary)
    (hsecond : second.trace (primary.lines.map TracedLine.text) = .ok secondary) :
    secondary.kind = second.kind ∧
      (primary.compare secondary).Describes lines primary secondary := by
  have hlines := (texts_and_valid_of_traceFrom (trace_eq_ok_iff.1 hfirst).2).1
  rw [hlines] at hsecond
  obtain ⟨hkind, hothers⟩ := trace_eq_ok_iff.1 hsecond
  exact ⟨hkind, Trace.describes_compare hlines (texts_and_valid_of_traceFrom hothers).1⟩

/-- A grammar that takes every line with characters for one token. -/
def oneWord (scopes : Kind → List String) (kind : Kind) : LoadedGrammar Unit where
  kind := kind
  fileName := kind.folder
  grammar := ⟨.empty⟩
  tokenizer := ⟨(), fun state line =>
    .ok (if line.isEmpty then [] else [⟨0, line.length, scopes kind⟩], state)⟩

theorem compare_describes_readonly : ∃ primary secondary,
    (oneWord (fun _ => ["variable.other.readonly"]) .source).trace ["x", ""] = .ok primary ∧
      (oneWord (fun _ => ["variable.other.readonly"]) .form).trace ["x", ""] = .ok secondary ∧
      primary.compare secondary = ⟨[⟨0, false, ["variable.other.readonly"]⟩],
        some [">x", " ^", " variable.other.readonly INCORRECT_SCOPE_EXTENSION", ">"]⟩ ∧
      (primary.compare secondary).Describes ["x", ""] primary secondary := by
  have htraces : ∃ primary secondary,
      (oneWord (fun _ => ["variable.other.readonly"]) .source).trace ["x", ""] = .ok primary ∧
      (oneWord (fun _ => ["variable.other.readonly"]) .form).trace
        (primary.lines.map TracedLine.text) = .ok secondary ∧
      (oneWord (fun _ => ["variable.other.readonly"]) .form).trace ["x", ""] = .ok secondary ∧
      primary.compare secondary = ⟨[⟨0, false, ["variable.other.readonly"]⟩],
        some [">x", " ^", " variable.other.readonly INCORRECT_SCOPE_EXTENSION", ">"]⟩ :=
    ⟨_, _, rfl, rfl, rfl, by decide +kernel⟩
  obtain ⟨primary, secondary, hfirst, hsecond, hlines, hverdict⟩ := htraces
  exact ⟨primary, secondary, hfirst, hlines, hverdict, (compare_describes hfirst hsecond).2⟩

end LoadedGrammar

end HighlightGrammar

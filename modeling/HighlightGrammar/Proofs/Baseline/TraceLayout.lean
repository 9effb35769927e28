import Mathlib.Data.String.Basic
import HighlightGrammar.Proofs.Baseline.TraceText

/-!
# Where a trace shows what

A shown trace has a row for each line of the text and two more for each of its tokens, so the rows
of all lines can be counted. The tokens lie in their lines. Below a line the carets of a token
therefore stand under the characters of the token and no further right, and no column is out of
the range of the numbers that count the bytes of a text. -/
namespace HighlightGrammar

theorem Text.length_le_utf8ByteSize (text : String) : text.length ≤ text.utf8ByteSize := by
  rw [← String.ofList_toList (s := text), String.utf8ByteSize_ofList, String.length_ofList]
  induction text.toList with
  | nil => exact Nat.zero_le _
  | cons c chars ih =>
    have hc := Char.utf8Size_pos c
    rw [List.length_cons, String.utf8Len_cons]
    omega

/-- Each item of a list gives a block of a flat list, behind the blocks of the items in front. -/
theorem getElem?_flatMap_of_getElem? {α β : Type} {f : α → List β} {items : List α} {index : Nat}
    {item : α} (h : items[index]? = some item) {row : Nat} (hrow : row < (f item).length) :
    (items.flatMap f)[((items.take index).flatMap f).length + row]? = (f item)[row]? := by
  obtain ⟨hindex, rfl⟩ := List.getElem?_eq_some_iff.1 h
  have hsplit : items = items.take index ++ items[index] :: items.drop (index + 1) := by
    rw [← List.drop_eq_getElem_cons hindex, List.take_append_drop]
  have hflat : items.flatMap f = (items.take index).flatMap f ++
      (f items[index] ++ (items.drop (index + 1)).flatMap f) := by
    rw [← List.flatMap_cons, ← List.flatMap_append, ← hsplit]
  rw [hflat, List.getElem?_append_right (Nat.le_add_right _ _), Nat.add_sub_cancel_left,
    List.getElem?_append_left hrow]

namespace Token

variable {token : Token} {text : String}

/-- Below the echo of a text the carets of a token stand under its characters. -/
structure Marks (token : Token) (text : String) : Prop where
  fits : token.marker.length ≤ (">" ++ text).length
  echo : ∀ index, (">" ++ text).toList[index + 1]? = text.toList[index]?
  caret : ∀ index, token.marker.toList[index + 1]? = some '^' ↔
    token.start ≤ index ∧ index < token.stop
  first : token.marker.toList[0]? = some ' '
  blank : ∀ c ∈ token.marker.toList, c = '^' ∨ c = ' '

theorem toList_marker (token : Token) : token.marker.toList =
    List.replicate (token.start + 1) ' ' ++ List.replicate token.length '^' := by
  rw [marker, margin, String.toList_append, String.toList_ofList, String.toList_ofList]

theorem marks_of_le (hstart : token.start ≤ token.stop) (hstop : token.stop ≤ text.length) :
    token.Marks text where
  fits := by
    rw [← String.length_toList, toList_marker, List.length_append, List.length_replicate,
      List.length_replicate, String.length_append, Token.length]
    have hecho : ">".length = 1 := rfl
    omega
  echo := fun index => by
    rw [String.toList_append]
    rfl
  caret := fun index => by
    rw [toList_marker, List.getElem?_append, List.length_replicate, Token.length]
    split
    · next hblank =>
      rw [List.getElem?_replicate_of_lt hblank]
      simp only [Option.some.injEq, Char.reduceEq, false_iff]
      omega
    · next hcaret =>
      rw [List.getElem?_replicate]
      split
      · next hin => exact ⟨fun _ => by omega, fun _ => rfl⟩
      · next hout =>
        simp only [reduceCtorEq, false_iff]
        omega
  first := by rw [toList_marker]; rfl
  blank := by
    intro c hc
    rw [toList_marker, List.mem_append] at hc
    exact hc.symm.imp List.eq_of_mem_replicate List.eq_of_mem_replicate

/-- The columns of a token, reckoned with words of some bits. -/
structure ColumnsFit (token : Token) (bits : Nat) : Prop where
  margin : (BitVec.ofNat bits token.start + BitVec.ofNat bits 1).toNat = token.margin.length
  carets : (BitVec.ofNat bits token.stop - BitVec.ofNat bits token.start).toNat = token.length
  marker : (BitVec.ofNat bits token.start + BitVec.ofNat bits 1 +
    BitVec.ofNat bits token.length).toNat = token.marker.length

/-- Words that can count twice the bytes of a text are wide enough for columns in it. -/
theorem columnsFit_of_le (hstart : token.start ≤ token.stop) (hstop : token.stop ≤ text.length)
    {bits : Nat} (hbits : text.utf8ByteSize < 2 ^ bits) : token.ColumnsFit (bits + 1) := by
  have hbytes := Text.length_le_utf8ByteSize text
  have hpower : 2 ^ (bits + 1) = 2 ^ bits + 2 ^ bits := by rw [Nat.pow_succ]; omega
  have hsmall : ∀ {n}, n ≤ token.stop + 1 → (BitVec.ofNat (bits + 1) n).toNat = n := by
    intro n hn
    rw [BitVec.toNat_ofNat, Nat.mod_eq_of_lt]
    omega
  have hlength : token.length = token.stop - token.start := rfl
  have hmargin : (BitVec.ofNat (bits + 1) token.start + BitVec.ofNat (bits + 1) 1).toNat =
      token.start + 1 := by
    rw [BitVec.toNat_add_of_lt] <;> rw [hsmall (by omega), hsmall (by omega)]
    omega
  refine ⟨?_, ?_, ?_⟩
  · rw [hmargin, Token.margin, String.length_ofList, List.length_replicate]
  · rw [BitVec.toNat_sub_of_le, hsmall (by omega), hsmall (by omega), hlength]
    rw [BitVec.le_def, hsmall (by omega), hsmall (by omega)]
    exact hstart
  · rw [BitVec.toNat_add_of_lt] <;> rw [hmargin, hsmall (by omega)]
    · rw [← String.length_toList, toList_marker, List.length_append, List.length_replicate,
        List.length_replicate]
    · omega

end Token

namespace TracedLine

variable {kind : Kind} {line : TracedLine}

theorem length_below (tokens : List Token) : (below kind tokens).length = 2 * tokens.length := by
  induction tokens with
  | nil => rfl
  | cons token tokens ih =>
    have htwo : [token.marker, token.scopeLine kind].length = 2 := rfl
    rw [below, List.flatMap_cons, ← below, List.length_append, ih, htwo, List.length_cons]
    omega

theorem length_render (kind : Kind) :
    (line.render kind).length = 1 + 2 * line.tokens.length := by
  rw [render, List.length_cons, ← below, length_below, Nat.add_comm]

theorem getElem?_below (kind : Kind) {tokens : List Token} {index : Nat} {token : Token}
    (h : tokens[index]? = some token) :
    (below kind tokens)[2 * index]? = some token.marker ∧
      (below kind tokens)[2 * index + 1]? = some (token.scopeLine kind) := by
  have hindex := (List.getElem?_eq_some_iff.1 h).1
  have hrows : (below kind (tokens.take index)).length = 2 * index := by
    rw [length_below, List.length_take, Nat.min_eq_left (Nat.le_of_lt hindex)]
  have hblock : ∀ row < 2, (below kind tokens)[2 * index + row]? =
      [token.marker, token.scopeLine kind][row]? := by
    intro row hrow
    rw [← hrows]
    exact getElem?_flatMap_of_getElem? h hrow
  exact ⟨hblock 0 (by decide), hblock 1 (by decide)⟩

end TracedLine

/-- The row in which a trace shows the line at a position: the lines in front of it come first. -/
def Trace.row (trace : Trace) (index : Nat) : Nat :=
  (render ⟨trace.kind, trace.lines.take index⟩).length

namespace Trace

variable {trace : Trace} {index : Nat} {line : TracedLine}

theorem row_zero : trace.row 0 = 0 := rfl

theorem row_succ (h : trace.lines[index]? = some line) :
    trace.row (index + 1) = trace.row index + (1 + 2 * line.tokens.length) := by
  rw [row, row, render, render, List.take_add_one, h, List.flatMap_append, List.length_append,
    ← TracedLine.length_render trace.kind]
  exact congrArg (_ + ·) (congrArg List.length (List.flatMap_singleton ..))

theorem length_render : trace.render.length = trace.row trace.lines.length := by
  rw [row, List.take_length]

theorem getElem?_render (h : trace.lines[index]? = some line) {row : Nat}
    (hrow : row < 1 + 2 * line.tokens.length) :
    trace.render[trace.row index + row]? = (line.render trace.kind)[row]? := by
  rw [← TracedLine.length_render trace.kind] at hrow
  exact getElem?_flatMap_of_getElem? h hrow

/-- The rows of a line: its echo, and two rows for each of its tokens. -/
theorem getElem?_render_rows (h : trace.lines[index]? = some line) :
    trace.render[trace.row index]? = some (">" ++ line.text) ∧
    ∀ position token, line.tokens[position]? = some token →
      trace.render[trace.row index + (1 + 2 * position)]? = some token.marker ∧
      trace.render[trace.row index + (2 + 2 * position)]? =
        some (token.scopeLine trace.kind) := by
  have hecho := getElem?_render h (Nat.lt_add_right (2 * line.tokens.length) Nat.one_pos)
  refine ⟨hecho, fun position token htoken => ?_⟩
  have hposition := (List.getElem?_eq_some_iff.1 htoken).1
  obtain ⟨hmarker, hscopes⟩ := TracedLine.getElem?_below trace.kind htoken
  rw [getElem?_render h (by omega), getElem?_render h (by omega), Nat.add_comm 1, Nat.add_comm 2]
  exact ⟨hmarker, hscopes⟩

end Trace

namespace LoadedGrammar

variable {σ : Type} {grammar : LoadedGrammar σ}

/-- A trace has the lines of its text with tokens that lie in them and have scopes. It shows each
line by its echo and two rows for each token, the first of which has carets under the characters
of the token and is no longer than the echo. Words in which the bytes of a line take no more than
half of the range do not overflow. -/
theorem trace_layout {lines : List String} {trace : Trace} (h : grammar.trace lines = .ok trace) :
    trace.lines.map TracedLine.text = lines ∧
    (∀ line ∈ trace.lines, ∀ token ∈ line.tokens,
      token.start ≤ token.stop ∧ token.stop ≤ line.text.length ∧ token.scopes ≠ [] ∧
      token.Marks line.text ∧
      ∀ bits, line.text.utf8ByteSize < 2 ^ bits → token.ColumnsFit (bits + 1)) ∧
    trace.row 0 = 0 ∧ trace.render.length = trace.row trace.lines.length ∧
    ∀ index line, trace.lines[index]? = some line →
      trace.row (index + 1) = trace.row index + (1 + 2 * line.tokens.length) ∧
      trace.render[trace.row index]? = some (">" ++ line.text) ∧
      ∀ position token, line.tokens[position]? = some token →
        trace.render[trace.row index + (1 + 2 * position)]? = some token.marker ∧
        trace.render[trace.row index + (2 + 2 * position)]? =
          some (token.scopeLine trace.kind) := by
  obtain ⟨htexts, hvalid⟩ := texts_and_valid_of_traceFrom (trace_eq_ok_iff.1 h).2
  refine ⟨htexts, ?_, Trace.row_zero, Trace.length_render, ?_⟩
  · intro line hline token htoken
    obtain ⟨hstart, hstop, hscopes⟩ :=
      (Token.validate_eq_ok_iff _ _).1 (hvalid line hline token htoken)
    exact ⟨hstart, hstop, hscopes, Token.marks_of_le hstart hstop,
      fun bits hbits => Token.columnsFit_of_le hstart hstop hbits⟩
  · intro index line hline
    exact ⟨Trace.row_succ hline, Trace.getElem?_render_rows hline⟩

theorem trace_layout_accented : ∃ trace,
    (oneToken () (fun kind => [kind.scopeName]) .form).trace ["é:", ""] = .ok trace ∧
      trace.render = [">é:", " ^^", " source.per", ">", " ", " source.per"] ∧
      trace.lines.map TracedLine.text = ["é:", ""] ∧ trace.render[trace.row 1]? = some ">" ∧
      ∀ line ∈ trace.lines, ∀ token ∈ line.tokens, token.Marks line.text ∧ token.ColumnsFit 3 := by
  have htrace : ∃ trace,
      (oneToken () (fun kind => [kind.scopeName]) .form).trace ["é:", ""] = .ok trace ∧
      trace.lines = [⟨"é:", [⟨0, 2, ["source.per"]⟩]⟩, ⟨"", [⟨0, 0, ["source.per"]⟩]⟩] ∧
      trace.render = [">é:", " ^^", " source.per", ">", " ", " source.per"] :=
    ⟨_, rfl, by decide +kernel, by decide +kernel⟩
  obtain ⟨trace, htrace, hlines, hrender⟩ := htrace
  obtain ⟨htexts, htokens, -, -, hrows⟩ := trace_layout htrace
  have hsecond := hrows 1 ⟨"", [⟨0, 0, ["source.per"]⟩]⟩ (by rw [hlines]; rfl)
  refine ⟨trace, htrace, hrender, htexts, hsecond.2.1, fun line hline token htoken => ?_⟩
  obtain ⟨-, -, -, hmarks, hfit⟩ := htokens line hline token htoken
  have hbytes : ∀ text ∈ ["é:", ""], text.utf8ByteSize < 2 ^ 2 := by decide +kernel
  exact ⟨hmarks, hfit 2 (hbytes line.text (htexts ▸ List.mem_map_of_mem hline))⟩

end LoadedGrammar

end HighlightGrammar

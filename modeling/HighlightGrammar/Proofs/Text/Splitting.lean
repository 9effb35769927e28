import HighlightGrammar.Proofs.Baseline.Reports
import HighlightGrammar.Proofs.Text.Lines

/-!
# Cutting a text into lines

A text is lines with terminators between them, and it is so in one way only, once a line feed
directly behind a carriage return belongs to it. Cutting a text finds this way, so lines come back
whatever terminator joins them, and a report does not tell the terminators of its document. -/
namespace HighlightGrammar

namespace Text

/-- A line holds none of the characters that end lines. -/
def Unbroken (line : List Char) : Prop := '\r' ∉ line ∧ '\n' ∉ line

instance (line : List Char) : Decidable (Unbroken line) :=
  inferInstanceAs (Decidable ('\r' ∉ line ∧ '\n' ∉ line))

theorem unbroken_nil : Unbroken [] := ⟨nofun, nofun⟩

theorem unbroken_cons_iff {c : Char} {line : List Char} :
    Unbroken (c :: line) ↔ (c ≠ '\r' ∧ c ≠ '\n') ∧ Unbroken line := by
  simp only [Unbroken, List.mem_cons, not_or, ne_eq, eq_comm (a := c)]
  exact and_and_and_comm

/-- A text is cut into lines at terminators. A carriage return is a terminator of its own only where
no line feed follows it directly. -/
structure Cuts (text : List Char) (lines : List (List Char)) (terminators : List Terminator) :
    Prop where
  woven : weave lines terminators = text
  length : lines.length = terminators.length + 1
  unbroken : ∀ line ∈ lines, Unbroken line
  paired : ∀ i : Nat, terminators[i]? = some .cr → lines[i + 1]? = some [] →
    terminators[i + 1]? ≠ some .lf

section

variable {text line : List Char} {lines : List (List Char)} {terminators : List Terminator}
  {t : Terminator}

theorem weave_cons_cons (h : lines ≠ []) :
    weave (line :: lines) (t :: terminators) = line ++ t.chars ++ weave lines terminators := by
  cases lines with
  | nil => exact absurd rfl h
  | cons => rfl

theorem Cuts.ne_nil (h : Cuts text lines terminators) : lines ≠ [] := by
  intro hnil
  have hlength := h.length
  rw [hnil] at hlength
  cases hlength

/-- A text starts with a line feed when its first line is empty and ended by one. -/
theorem Cuts.head?_eq_feed_iff (h : Cuts text lines terminators) :
    text.head? = some '\n' ↔ lines[0]? = some [] ∧ terminators[0]? = some .lf := by
  obtain ⟨rfl, hlength, hunbroken, -⟩ := h
  cases lines with
  | nil => cases hlength
  | cons line lines =>
    have hline := hunbroken line List.mem_cons_self
    cases line with
    | cons c line =>
      have hc : c ≠ '\n' := (unbroken_cons_iff.1 hline).1.2
      cases lines with
      | nil => simp [weave, hc]
      | cons => cases terminators <;> simp [weave, hc]
    | nil =>
      cases terminators with
      | nil =>
        obtain rfl : lines = [] := List.eq_nil_of_length_eq_zero (by simpa using hlength)
        simp [weave]
      | cons t terminators =>
        have hlines : lines ≠ [] := by
          rintro rfl
          simp at hlength
        rw [weave_cons_cons hlines]
        cases t <;> simp [Terminator.chars]

theorem Cuts.single (h : Unbroken line) : Cuts line [line] [] where
  woven := rfl
  length := rfl
  unbroken := by simpa using h
  paired := nofun

/-- One more line in front, ended by a terminator. -/
theorem Cuts.cons (h : Cuts text lines terminators) (hline : Unbroken line)
    (hpair : t = .cr → text.head? ≠ some '\n') :
    Cuts (line ++ t.chars ++ text) (line :: lines) (t :: terminators) where
  woven := by rw [weave_cons_cons h.ne_nil, h.woven]
  length := by rw [List.length_cons, List.length_cons, h.length]
  unbroken := List.forall_mem_cons.2 ⟨hline, h.unbroken⟩
  paired := by
    intro i hreturn hempty hfeed
    cases i with
    | zero =>
      have hcr : t = .cr := Option.some.inj hreturn
      exact hpair hcr (h.head?_eq_feed_iff.2 ⟨hempty, hfeed⟩)
    | succ i => exact h.paired i hreturn hempty hfeed

/-- One more character in front of the first line. -/
theorem Cuts.consFirst {c : Char} (h : Cuts text lines terminators) (hreturn : c ≠ '\r')
    (hfeed : c ≠ '\n') : Cuts (c :: text) (consFirst c lines) terminators := by
  cases lines with
  | nil => exact absurd rfl h.ne_nil
  | cons line lines =>
    have hline := h.unbroken line List.mem_cons_self
    have hlines := (List.forall_mem_cons.1 h.unbroken).2
    refine ⟨?_, h.length, ?_, h.paired⟩
    · rw [← h.woven]
      cases lines with
      | nil => rfl
      | cons => cases terminators <;> rfl
    · exact List.forall_mem_cons.2 ⟨unbroken_cons_iff.2 ⟨⟨hreturn, hfeed⟩, hline⟩, hlines⟩

/-- A terminator in front ends an empty line. -/
theorem lines_chars_append (hpair : t = .cr → text.head? ≠ some '\n') :
    Text.lines (t.chars ++ text) = [] :: Text.lines text ∧
      Text.terminators (t.chars ++ text) = t :: Text.terminators text := by
  cases t with
  | crlf => exact ⟨rfl, rfl⟩
  | lf => exact ⟨rfl, rfl⟩
  | cr =>
    have hfollow : ∀ rest, text = '\n' :: rest → False := by
      rintro rest rfl
      exact hpair rfl rfl
    constructor
    · rw [Terminator.chars, List.singleton_append, Text.lines]
      exact hfollow
    · rw [Terminator.chars, List.singleton_append, Text.terminators]
      exact hfollow

theorem lines_cons {c : Char} (hreturn : c ≠ '\r') (hfeed : c ≠ '\n') :
    Text.lines (c :: text) = Text.consFirst c (Text.lines text) ∧
      Text.terminators (c :: text) = Text.terminators text := by
  constructor
  · rw [Text.lines]
    · exact fun rest hc _ => hreturn hc
    · exact hreturn
    · exact hfeed
  · rw [Text.terminators]
    · exact fun rest hc _ => hreturn hc
    · exact hreturn
    · exact hfeed

/-- A line in front is ended by the terminator behind it. -/
theorem lines_append (hline : Unbroken line) (hpair : t = .cr → text.head? ≠ some '\n') :
    Text.lines (line ++ t.chars ++ text) = line :: Text.lines text ∧
      Text.terminators (line ++ t.chars ++ text) = t :: Text.terminators text := by
  induction line with
  | nil => exact lines_chars_append hpair
  | cons c line ih =>
    obtain ⟨⟨hreturn, hfeed⟩, hline⟩ := unbroken_cons_iff.1 hline
    obtain ⟨hlines, hterminators⟩ := ih hline
    rw [List.cons_append, List.cons_append, (lines_cons hreturn hfeed).1,
      (lines_cons hreturn hfeed).2, hlines, hterminators]
    exact ⟨rfl, rfl⟩

theorem lines_of_unbroken (hline : Unbroken line) :
    Text.lines line = [line] ∧ Text.terminators line = [] := by
  induction line with
  | nil => exact ⟨rfl, rfl⟩
  | cons c line ih =>
    obtain ⟨⟨hreturn, hfeed⟩, hline⟩ := unbroken_cons_iff.1 hline
    obtain ⟨hlines, hterminators⟩ := ih hline
    rw [(lines_cons hreturn hfeed).1, (lines_cons hreturn hfeed).2, hlines, hterminators]
    exact ⟨rfl, rfl⟩

/-- A text is cut into its lines at its terminators. -/
theorem cuts_lines (text : List Char) : Cuts text (Text.lines text) (Text.terminators text) := by
  have hbreak : ∀ (t : Terminator) (rest : List Char), (t = .cr → rest.head? ≠ some '\n') →
      Cuts rest (Text.lines rest) (Text.terminators rest) →
      Cuts (t.chars ++ rest) (Text.lines (t.chars ++ rest)) (Text.terminators (t.chars ++ rest)) := by
    intro t rest hpair hrest
    rw [(lines_chars_append hpair).1, (lines_chars_append hpair).2]
    exact hrest.cons unbroken_nil hpair
  induction text using Text.lines.induct with
  | case1 => exact .single unbroken_nil
  | case2 rest ih => exact hbreak .crlf rest (fun heq => nomatch heq) ih
  | case3 rest hfollow ih =>
    refine hbreak .cr rest (fun _ hhead => ?_) ih
    obtain ⟨after, rfl⟩ := List.head?_eq_some_iff.1 hhead
    exact hfollow after rfl
  | case4 rest ih => exact hbreak .lf rest (fun heq => nomatch heq) ih
  | case5 c rest _ hreturn hfeed ih =>
    rw [(lines_cons hreturn hfeed).1, (lines_cons hreturn hfeed).2]
    exact ih.consFirst hreturn hfeed

/-- A text is cut in no other way. -/
theorem Cuts.unique (h : Cuts text lines terminators) :
    lines = Text.lines text ∧ terminators = Text.terminators text := by
  induction lines generalizing text terminators with
  | nil => exact absurd rfl h.ne_nil
  | cons line lines ih =>
    have hline := h.unbroken line List.mem_cons_self
    cases terminators with
    | nil =>
      obtain rfl : lines = [] := List.eq_nil_of_length_eq_zero (by simpa using h.length)
      obtain rfl : line = text := h.woven
      obtain ⟨hlines, hterminators⟩ := lines_of_unbroken hline
      exact ⟨hlines.symm, hterminators.symm⟩
    | cons t terminators =>
      have hne : lines ≠ [] := by
        rintro rfl
        have hlength := h.length
        simp at hlength
      have hrest : Cuts (weave lines terminators) lines terminators :=
        ⟨rfl, Nat.succ.inj h.length, (List.forall_mem_cons.1 h.unbroken).2,
          fun i => h.paired (i + 1)⟩
      have hpair : t = .cr → (weave lines terminators).head? ≠ some '\n' := by
        rintro rfl hhead
        obtain ⟨hempty, hfeed⟩ := hrest.head?_eq_feed_iff.1 hhead
        exact h.paired 0 rfl hempty hfeed
      obtain ⟨hlines, hterminators⟩ := ih hrest
      obtain rfl : line ++ t.chars ++ weave lines terminators = text := by
        rw [← weave_cons_cons hne, h.woven]
      obtain ⟨happendLines, happendTerminators⟩ := lines_append hline hpair
      rw [happendLines, happendTerminators, ← hlines, ← hterminators]
      exact ⟨rfl, rfl⟩

theorem cuts_iff :
    Cuts text lines terminators ↔ lines = Text.lines text ∧ terminators = Text.terminators text := by
  constructor
  · exact Cuts.unique
  · rintro ⟨rfl, rfl⟩
    exact cuts_lines text

end

/-- Lines with one terminator between all of them. -/
def Terminator.join (t : Terminator) (lines : List String) : String :=
  (String.ofList t.chars).intercalate lines

theorem weave_replicate (t : Terminator) (lines : List (List Char)) :
    weave lines (List.replicate (lines.length - 1) t) = t.chars.intercalate lines := by
  induction lines with
  | nil => rfl
  | cons line lines ih =>
    cases lines with
    | nil => simp [weave]
    | cons next lines =>
      have hreplicate : List.replicate ((line :: next :: lines).length - 1) t =
          t :: List.replicate ((next :: lines).length - 1) t := rfl
      rw [hreplicate, weave_cons_cons (List.cons_ne_nil _ _), ih]
      simp [List.intercalate]

/-- Lines that are joined are cut at what joins them. -/
theorem splitLines_join {lines : List String} (hne : lines ≠ [])
    (hunbroken : ∀ line ∈ lines, Unbroken line.toList) (t : Terminator) :
    splitLines (t.join lines) = lines := by
  have hcuts : Cuts (t.join lines).toList (lines.map String.toList)
      (List.replicate (lines.length - 1) t) := by
    refine ⟨?_, ?_, ?_, ?_⟩
    · have hweave := weave_replicate t (lines.map String.toList)
      rw [List.length_map] at hweave
      rw [hweave, Terminator.join, String.toList_intercalate, String.toList_ofList]
    · have hpos := List.length_pos_iff.2 hne
      rw [List.length_map, List.length_replicate]
      omega
    · intro chars hchars
      obtain ⟨line, hline, rfl⟩ := List.mem_map.1 hchars
      exact hunbroken line hline
    · intro i hreturn _ hfeed
      obtain rfl : t = .cr := List.eq_of_mem_replicate (List.mem_of_getElem? hreturn) |>.symm
      cases List.eq_of_mem_replicate (List.mem_of_getElem? hfeed)
  rw [splitLines, ← hcuts.unique.1, List.map_map]
  simp

theorem Terminator.join_lf (lines : List String) : lf.join lines = joinLines lines := rfl

theorem unbroken_splitLines (text : String) : ∀ line ∈ splitLines text, Unbroken line.toList := by
  intro line hline
  obtain ⟨chars, hchars, rfl⟩ := List.mem_map.1 hline
  rw [String.toList_ofList]
  exact (cuts_lines text.toList).unbroken chars hchars

theorem map_toList_splitLines (text : String) :
    (splitLines text).map String.toList = Text.lines text.toList := by
  rw [splitLines, List.map_map]
  simp

end Text

/-- A report echoes the lines of its document between two rulers. -/
theorem Report.exists_text_eq (report : Report) : ∃ rest, report.text =
    "original file\n" ++ rulerLine ++ "\n" ++ joinLines report.lines ++ "\n" ++ rulerLine ++ "\n\n" ++
      rest := by
  unfold Report.text
  exact ⟨_, String.append_assoc⟩

namespace GrammarRegistry

open Text

variable {σ : Type} (registry : GrammarRegistry σ) (path : Path)

/-- A report is made from the lines of a document alone. -/
theorem report_congr_of_splitLines {text other : String} (h : splitLines text = splitLines other) :
    registry.report path text = registry.report path other := by
  rw [report, report, h]

/-- A text is cut into lines without line ends, one more than it has terminators, and it is cut in
this way only; lines that one terminator joins are cut again. The report on a document stays the
same when one terminator takes the place of all others, and the lines that it echoes are those of
the document. -/
theorem splitLines_inverts_joining :
    (∀ text : String, splitLines text ≠ [] ∧
      (∀ line ∈ splitLines text, Unbroken line.toList) ∧
      (splitLines text).length = (terminators text.toList).length + 1 ∧
      (∀ lines ends, Cuts text.toList lines ends ↔
        lines = (splitLines text).map String.toList ∧ ends = terminators text.toList) ∧
      ∀ t : Terminator,
        registry.report path (t.join (splitLines text)) = registry.report path text) ∧
    (∀ lines : List String, lines ≠ [] → (∀ line ∈ lines, Unbroken line.toList) →
      ∀ t : Terminator, splitLines (t.join lines) = lines) ∧
    ∀ text report, registry.report path text = .ok report →
      splitLines (joinLines report.lines) = splitLines text ∧
      ∃ rest, report.text = "original file\n" ++ rulerLine ++ "\n" ++ joinLines report.lines ++
        "\n" ++ rulerLine ++ "\n\n" ++ rest := by
  have hjoin : ∀ (text : String) (t : Terminator),
      splitLines (t.join (splitLines text)) = splitLines text := fun text t =>
    splitLines_join (splitLines_ne_nil text) (unbroken_splitLines text) t
  refine ⟨fun text => ⟨splitLines_ne_nil text, unbroken_splitLines text, ?_, ?_, ?_⟩,
    fun lines => splitLines_join, fun text report hreport => ⟨?_, ?_⟩⟩
  · rw [← (cuts_lines text.toList).length, ← map_toList_splitLines, List.length_map]
  · intro lines ends
    rw [cuts_iff, map_toList_splitLines]
  · exact fun t => report_congr_of_splitLines registry path (hjoin text t)
  · obtain ⟨-, -, hlines, -⟩ := report_inv hreport
    rw [hlines, ← Terminator.join_lf, hjoin]
  · exact report.exists_text_eq

/-- Two carriage returns have an empty line between them. -/
theorem splitLines_inverts_joining_return :
    splitLines "a\r\rb" = ["a", "", "b"] ∧ splitLines "a\r\n\r\nb" = ["a", "", "b"] := by
  have hjoin := (splitLines_inverts_joining (oneTokenRegistry () fun _ => ["text"]) ⟨"a.4gl"⟩).2.1
    ["a", "", "b"] (by decide) (by decide)
  have hreturns : Terminator.cr.join ["a", "", "b"] = "a\r\rb" := by decide +kernel
  have hpairs : Terminator.crlf.join ["a", "", "b"] = "a\r\n\r\nb" := by decide +kernel
  constructor
  · rw [← hreturns]
    exact hjoin .cr
  · rw [← hpairs]
    exact hjoin .crlf

end GrammarRegistry

end HighlightGrammar

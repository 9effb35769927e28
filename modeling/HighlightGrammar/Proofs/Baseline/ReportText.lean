import HighlightGrammar.Proofs.Baseline.TraceText

/-!
# Reading a report back

The lines of a document may look like any other line of a report, so a report is read from its end.
Trace lines come last, and the line in front of them is a ruler, which is no trace line. What is in
front of the name of the grammar tells whether another section comes before. -/
namespace HighlightGrammar

/-- A line that may stand in a trace. -/
def IsTraceLine (line : String) : Prop := line.toList.head? = some '>' ∨ IsBelow line

theorem not_isTraceLine_rulerLine : ¬ IsTraceLine rulerLine := by
  have hfirst : rulerLine.toList.head? = some '-' := by decide
  rw [IsTraceLine, IsBelow, hfirst]
  decide

namespace ReportSection

/-- The lines of a section. -/
def written (part : ReportSection) : List String :=
  ["Grammar: " ++ part.fileName, rulerLine] ++ part.trace

/-- A section made of a line with a name and of trace lines. -/
structure Readable (part : ReportSection) : Prop where
  fileName : '\n' ∉ part.fileName.toList
  nonempty : part.trace ≠ []
  shown : ∀ line ∈ part.trace, IsTraceLine line
  unbroken : ∀ line ∈ part.trace, '\n' ∉ line.toList

variable {part part' : ReportSection}

theorem text_eq_joinLines (h : part.Readable) : part.text = joinLines part.written := by
  rw [written, joinLines_append (by simp) h.nonempty, joinLines_pair, text]

theorem not_mem_written (h : part.Readable) : ∀ line ∈ part.written, '\n' ∉ line.toList := by
  have hname : '\n' ∉ ("Grammar: " ++ part.fileName).toList := by
    rw [String.toList_append, List.mem_append, not_or]
    exact ⟨by decide, h.fileName⟩
  have hruler : '\n' ∉ rulerLine.toList := by decide
  refine List.forall_mem_append.2 ⟨?_, h.unbroken⟩
  simp only [List.forall_mem_cons]
  exact ⟨hname, hruler, nofun⟩

/-- A section at the end of some lines is told by them, with all that comes before. -/
theorem eq_of_append_written_eq {before before' : List String} (h : part.Readable)
    (h' : part'.Readable) (heq : before ++ part.written = before' ++ part'.written) :
    before = before' ∧ part = part' := by
  have hreverse := congrArg List.reverse heq
  simp only [written, List.reverse_append, List.reverse_cons, List.nil_append, List.append_assoc,
    List.cons_append] at hreverse
  have hruler : ∀ before : List String, ∀ line ∈ (rulerLine :: before).head?,
      ¬ IsTraceLine line := by
    intro before line hline
    exact Option.some.inj hline ▸ not_isTraceLine_rulerLine
  obtain ⟨htrace, hrest⟩ := append_inj_of_front
    (fun line hline => h.shown line (List.mem_reverse.1 hline))
    (fun line hline => h'.shown line (List.mem_reverse.1 hline)) (hruler _) (hruler _) hreverse
  obtain ⟨hname, hbefore⟩ := List.cons.inj (List.cons.inj hrest).2
  refine ⟨List.reverse_inj.1 hbefore, ?_⟩
  cases part
  cases part'
  rw [mk.injEq]
  exact ⟨(String.append_right_inj _).1 hname, List.reverse_inj.1 htrace⟩

end ReportSection

namespace Report

/-- The lines of a report. -/
def written (report : Report) : List String :=
  ["original file", rulerLine] ++ report.lines ++ [rulerLine, ""] ++ report.main.written ++
    match report.secondary with
    | some part => ["", ""] ++ part.written
    | none => []

/-- A report made of lines and of sections that can be read. -/
structure Readable (report : Report) : Prop where
  nonempty : report.lines ≠ []
  unbroken : ∀ line ∈ report.lines, '\n' ∉ line.toList
  main : report.main.Readable
  secondary : ∀ part ∈ report.secondary, part.Readable

variable {report report' : Report}

theorem text_eq_joinLines (h : report.Readable) : report.text = joinLines report.written := by
  have hmain := ReportSection.text_eq_joinLines h.main
  have hwritten : ∀ part : ReportSection, part.written ≠ [] := fun part => by
    simp [ReportSection.written]
  have hfirst : "original file\n" = "original file" ++ "\n" := rfl
  have hgap : "\n\n" = "\n" ++ "\n" := rfl
  have hgap' : "\n\n\n" = "\n" ++ "\n" ++ "\n" := rfl
  unfold text written
  generalize rulerLine = ruler
  rw [hmain, hfirst, hgap, hgap']
  cases hsecondary : report.secondary with
  | none =>
    rw [String.append_empty, List.append_nil, joinLines_append (by simp) (hwritten _),
      joinLines_append (by simp) (by simp), joinLines_append (by simp) h.nonempty, joinLines_pair,
      joinLines_pair, String.append_empty]
    simp only [String.append_assoc]
  | some part =>
    have hpart := ReportSection.text_eq_joinLines (h.secondary part hsecondary)
    dsimp only
    rw [joinLines_append (by simp) (by simp), joinLines_append (by simp) (hwritten _),
      joinLines_append (by simp) (hwritten _), joinLines_append (by simp) (by simp),
      joinLines_append (by simp) h.nonempty, joinLines_pair, joinLines_pair, joinLines_pair, hpart]
    simp only [String.append_assoc, String.empty_append]

theorem not_mem_written (h : report.Readable) : ∀ line ∈ report.written, '\n' ∉ line.toList := by
  have hfirst : ∀ line ∈ ["original file", rulerLine], '\n' ∉ line.toList := by decide
  have hruler : ∀ line ∈ [rulerLine, ""], '\n' ∉ line.toList := by decide
  have hgap : ∀ line ∈ ["", ""], '\n' ∉ line.toList := by decide
  have hmain := ReportSection.not_mem_written h.main
  unfold written
  simp only [List.forall_mem_append]
  refine ⟨⟨⟨⟨hfirst, h.unbroken⟩, hruler⟩, hmain⟩, ?_⟩
  cases hsecondary : report.secondary with
  | none => nofun
  | some part =>
    have hpart := ReportSection.not_mem_written (h.secondary part hsecondary)
    exact List.forall_mem_append.2 ⟨hgap, hpart⟩

/-- The section at the end of a report. -/
def lastSection (report : Report) : ReportSection := report.secondary.getD report.main

/-- The lines in front of that section. -/
def front (report : Report) : List String :=
  let opening := ["original file", rulerLine] ++ report.lines ++ [rulerLine, ""]
  match report.secondary with
  | some _ => opening ++ report.main.written ++ ["", ""]
  | none => opening

theorem written_eq (report : Report) :
    report.written = report.front ++ report.lastSection.written := by
  unfold written front lastSection
  cases report.secondary with
  | none => rw [List.append_nil, Option.getD_none]
  | some part => rw [← List.append_assoc, Option.getD_some]

theorem Readable.lastSection (h : report.Readable) : report.lastSection.Readable := by
  unfold Report.lastSection
  cases hsecondary : report.secondary with
  | none => exact h.main
  | some part => exact h.secondary part hsecondary

/-- What a report shows is told by its text. -/
theorem eq_of_text_eq (h : report.Readable) (h' : report'.Readable)
    (htext : report.text = report'.text) :
    report.lines = report'.lines ∧ report.main = report'.main ∧
      report.secondary = report'.secondary := by
  have hwritten : report.written = report'.written := by
    rw [text_eq_joinLines h, text_eq_joinLines h'] at htext
    exact eq_of_joinLines_eq (by simp [written]) (by simp [written]) (not_mem_written h)
      (not_mem_written h') htext
  rw [written_eq, written_eq] at hwritten
  obtain ⟨hfront, hlast⟩ :=
    ReportSection.eq_of_append_written_eq h.lastSection h'.lastSection hwritten
  have hopening : ∀ {lines lines' : List String}, ["original file", rulerLine] ++ lines ++
      [rulerLine, ""] = ["original file", rulerLine] ++ lines' ++ [rulerLine, ""] →
        lines = lines' :=
    fun heq => List.append_cancel_left (List.append_cancel_right heq)
  -- In front of the last section stands a ruler or a second blank line.
  have hgap : ∀ {before before' : List String},
      before ++ [rulerLine, ""] ≠ before' ++ ["", ""] := by
    intro before before' heq
    exact absurd (List.append_inj' heq rfl).2 (by decide)
  unfold front at hfront
  unfold lastSection at hlast
  cases hsecondary : report.secondary <;> cases hsecondary' : report'.secondary <;>
    simp only [hsecondary, hsecondary', Option.getD_none, Option.getD_some] at hfront hlast
  case none.none => exact ⟨hopening hfront, hlast, rfl⟩
  case none.some => exact absurd hfront hgap
  case some.none => exact absurd hfront.symm hgap
  case some.some =>
    obtain ⟨hfirst, hmain⟩ := ReportSection.eq_of_append_written_eq h.main h'.main
      (List.append_cancel_right hfront)
    exact ⟨hopening hfirst, hmain, congrArg some hlast⟩

end Report

end HighlightGrammar

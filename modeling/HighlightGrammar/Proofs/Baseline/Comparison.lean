import HighlightGrammar.Proofs.Baseline.ReportText

/-!
# Comparing reports by their texts

Two runs whose reports have one text have found the same: the lines of the document, the names of
the grammars and all tokens of the traces that are shown. -/
namespace HighlightGrammar

/-- The name of a grammar is one line and the scopes that it has emitted are words. -/
structure TracedSection.Plain (part : TracedSection) : Prop where
  fileName : '\n' ∉ part.fileName.toList
  scopes : ∀ line ∈ part.trace.lines, line.HasPlainScopes

theorem Token.not_mem_marker (token : Token) : '\n' ∉ token.marker.toList := by
  simp [marker, margin]

theorem Token.not_mem_scopeLine {kind : Kind} {token : Token} (h : token.HasPlainScopes) :
    '\n' ∉ (token.scopeLine kind).toList := by
  have hmargin : '\n' ∉ token.margin.toList := by simp [margin]
  have hscopes : '\n' ∉ (" ".intercalate token.scopes).toList :=
    not_mem_intercalate (by decide) fun scope hscope => (h scope hscope).2
  have hmark : '\n' ∉ (" " ++ foreignMark).toList := by decide
  rw [scopeLine]
  split
  · simp only [String.append_empty, String.toList_append, List.mem_append, not_or]
    exact ⟨hmargin, hscopes⟩
  · simp only [String.toList_append, List.mem_append, not_or] at hmark ⊢
    exact ⟨⟨hmargin, hscopes⟩, hmark⟩

namespace TracedLine

variable {kind : Kind} {line : TracedLine}

theorem isTraceLine_of_mem_render : ∀ shown ∈ line.render kind, IsTraceLine shown := by
  intro shown hshown
  rcases List.mem_cons.1 hshown with rfl | hshown
  · exact Or.inl (by simp)
  · exact Or.inr (isBelow_of_mem_below shown hshown)

theorem not_mem_render (htext : '\n' ∉ line.text.toList) (hplain : line.HasPlainScopes) :
    ∀ shown ∈ line.render kind, '\n' ∉ shown.toList := by
  have hecho : '\n' ∉ (">" ++ line.text).toList := by
    rw [String.toList_append, List.mem_append, not_or]
    exact ⟨by decide, htext⟩
  refine List.forall_mem_cons.2 ⟨hecho, fun shown hshown => ?_⟩
  obtain ⟨token, htoken, hline⟩ := List.mem_flatMap.1 hshown
  rcases List.mem_cons.1 hline with rfl | hline
  · exact token.not_mem_marker
  · rw [List.mem_singleton.1 hline]
    exact Token.not_mem_scopeLine (hplain token htoken)

end TracedLine

namespace GrammarRegistry.Traces

variable {σ τ : Type} {registry : GrammarRegistry σ} {other : GrammarRegistry τ} {kind kind' : Kind}
  {lines lines' : List String} {part part' : TracedSection}

theorem readable_render (h : registry.Traces kind lines part) (hplain : part.Plain)
    (hlines : lines ≠ []) (hunbroken : ∀ line ∈ lines, '\n' ∉ line.toList) :
    part.render.Readable where
  fileName := hplain.fileName
  nonempty := by
    have hne : part.trace.lines ≠ [] := by
      intro hnil
      rw [← h.texts, hnil] at hlines
      exact hlines rfl
    obtain ⟨line, rest, hcons⟩ := List.exists_cons_of_ne_nil hne
    simp [TracedSection.render, Trace.render, hcons, TracedLine.render]
  shown := by
    intro shown hshown
    obtain ⟨line, -, hline⟩ := List.mem_flatMap.1 hshown
    exact TracedLine.isTraceLine_of_mem_render shown hline
  unbroken := by
    intro shown hshown
    obtain ⟨line, hmem, hline⟩ := List.mem_flatMap.1 hshown
    refine TracedLine.not_mem_render (hunbroken line.text ?_) (hplain.scopes line hmem) shown hline
    rw [← h.texts]
    exact List.mem_map_of_mem hmem

/-- A section that can be read shows what has been traced. -/
theorem eq_of_render_eq (h : registry.Traces kind lines part) (h' : other.Traces kind' lines' part')
    (hplain : part.Plain) (hplain' : part'.Plain) (heq : part.render = part'.render) :
    part.fileName = part'.fileName ∧ part.trace.lines = part'.trace.lines := by
  obtain ⟨hname, htrace⟩ := ReportSection.mk.inj heq
  exact ⟨hname, TracedLine.eq_of_render_eq h.valid h'.valid hplain.scopes hplain'.scopes htrace⟩

end GrammarRegistry.Traces

/-- The traces in a report. -/
structure Shown where
  main : TracedSection
  secondary : Option TracedSection

/-- All traces in a report are plain. -/
structure Shown.Plain (shown : Shown) : Prop where
  main : shown.main.Plain
  secondary : ∀ part ∈ shown.secondary, part.Plain

namespace GrammarRegistry

variable {σ τ : Type}

/-- A report shows the lines of a document and traces of them, one by the grammar of its kind and
perhaps one by the other grammar. -/
structure Shows (registry : GrammarRegistry σ) (path : Path) (text : String) (report : Report)
    (shown : Shown) : Prop where
  lines : report.lines = Text.splitLines text
  main : registry.Traces (Kind.forFile path) (Text.splitLines text) shown.main
  secondary : ∀ part ∈ shown.secondary,
    registry.Traces (Kind.forFile path).complement (Text.splitLines text) part
  main_eq : report.main = shown.main.render
  secondary_eq : report.secondary = shown.secondary.map TracedSection.render

variable {registry : GrammarRegistry σ} {path : Path} {text : String} {report : Report}
  {shown : Shown}

theorem exists_shows (h : registry.report path text = .ok report) :
    ∃ shown, registry.Shows path text report shown := by
  obtain ⟨main, hmain, hlines, hrender, ⟨-, hnone⟩ | ⟨-, other, hother, hsecondary⟩⟩ :=
    report_inv h
  · exact ⟨⟨main, none⟩, hlines, hmain, nofun, hrender, hnone⟩
  · rw [Trace.compare] at hsecondary
    split at hsecondary
    · exact ⟨⟨main, none⟩, hlines, hmain, nofun, hrender, hsecondary⟩
    · exact ⟨⟨main, some other⟩, hlines, hmain, fun part hpart => Option.some.inj hpart ▸ hother,
        hrender, hsecondary⟩

theorem Shows.readable (h : registry.Shows path text report shown) (hplain : shown.Plain) :
    report.Readable where
  nonempty := by
    rw [h.lines]
    exact Text.splitLines_ne_nil text
  unbroken := by
    rw [h.lines]
    exact fun line => Text.not_mem_splitLines
  main := by
    rw [h.main_eq]
    exact h.main.readable_render hplain.main (Text.splitLines_ne_nil text)
      fun line => Text.not_mem_splitLines
  secondary := by
    intro part hpart
    rw [h.secondary_eq] at hpart
    obtain ⟨traced, htraced, rfl⟩ := Option.map_eq_some_iff.1 hpart
    exact (h.secondary traced htraced).readable_render (hplain.secondary traced htraced)
      (Text.splitLines_ne_nil text) fun line => Text.not_mem_splitLines

/-- Reports with one text show the same lines, names and tokens. -/
theorem shown_eq_of_text_eq {first : GrammarRegistry σ} {second : GrammarRegistry τ}
    {path path' : Path} {text text' : String} {report report' : Report}
    (h : first.report path text = .ok report) (h' : second.report path' text' = .ok report') :
    ∃ shown shown', first.Shows path text report shown ∧ second.Shows path' text' report' shown' ∧
      (shown.Plain → shown'.Plain → report.text = report'.text →
        Text.splitLines text = Text.splitLines text' ∧
        shown.main.fileName = shown'.main.fileName ∧
        shown.main.trace.lines = shown'.main.trace.lines ∧
        shown.secondary.map (fun part => (part.fileName, part.trace.lines)) =
          shown'.secondary.map fun part => (part.fileName, part.trace.lines)) := by
  obtain ⟨shown, hshows⟩ := exists_shows h
  obtain ⟨shown', hshows'⟩ := exists_shows h'
  refine ⟨shown, shown', hshows, hshows', fun hplain hplain' htext => ?_⟩
  obtain ⟨hlines, hmain, hsecondary⟩ :=
    Report.eq_of_text_eq (hshows.readable hplain) (hshows'.readable hplain') htext
  rw [hshows.lines, hshows'.lines] at hlines
  rw [hshows.main_eq, hshows'.main_eq] at hmain
  rw [hshows.secondary_eq, hshows'.secondary_eq] at hsecondary
  obtain ⟨hname, htrace⟩ := hshows.main.eq_of_render_eq hshows'.main hplain.main hplain'.main hmain
  refine ⟨hlines, hname, htrace, ?_⟩
  cases hpart : shown.secondary with
  | none =>
    rw [hpart, Option.map_none, eq_comm, Option.map_eq_none_iff] at hsecondary
    rw [hsecondary]
  | some part =>
    rw [hpart, Option.map_some, eq_comm, Option.map_eq_some_iff] at hsecondary
    obtain ⟨part', hpart', heq⟩ := hsecondary
    have hsame := (hshows.secondary part hpart).eq_of_render_eq (hshows'.secondary part' hpart')
      (hplain.secondary part hpart) (hplain'.secondary part' hpart') heq.symm
    rw [hpart', Option.map_some, Option.map_some, hsame.1, hsame.2]

/-- Grammars with the same tokens whatever their states are. -/
def rootRegistry {σ : Type} (start : σ) : GrammarRegistry σ :=
  oneTokenRegistry start fun kind => [kind.scopeName, "meta"]

theorem shown_eq_of_text_eq_program : ∃ report report',
    (rootRegistry ()).report ⟨"a.4gl"⟩ "MAIN\nEND" = .ok report ∧
      (rootRegistry 0).report ⟨"b.4gl"⟩ "MAIN\r\nEND" = .ok report' ∧
      report.text = report'.text ∧ ∃ shown shown',
        (rootRegistry ()).Shows ⟨"a.4gl"⟩ "MAIN\nEND" report shown ∧
        (rootRegistry 0).Shows ⟨"b.4gl"⟩ "MAIN\r\nEND" report' shown' ∧
        shown.main.trace.lines = shown'.main.trace.lines := by
  have hname : ∀ kind : Kind, '\n' ∉ kind.folder.toList := by
    intro kind
    cases kind <;> decide
  have hscopes : ∀ kind : Kind, ∀ scope ∈ [kind.scopeName, "meta"],
      ' ' ∉ scope.toList ∧ '\n' ∉ scope.toList := by
    intro kind
    cases kind <;> decide
  have hplain : ∀ {σ : Type} (start : σ) kind part,
      (rootRegistry start).Traces kind ["MAIN", "END"] part → part.Plain := by
    rintro σ start kind ⟨fileName, trace⟩ ⟨grammar, hgrammar, hfile, htrace⟩
    rw [rootRegistry, slot_oneTokenRegistry] at hgrammar
    cases hgrammar
    cases hfile
    cases htrace
    refine ⟨hname kind, ?_⟩
    simpa [TracedLine.HasPlainScopes, Token.HasPlainScopes] using hscopes kind
  have hshown : ∀ {σ : Type} (start : σ) path text report shown,
      Text.splitLines text = ["MAIN", "END"] →
      (rootRegistry start).Shows path text report shown → shown.Plain := by
    intro σ start path text report shown hlines hshows
    have hmain := hshows.main
    have hsecondary := hshows.secondary
    rw [hlines] at hmain hsecondary
    exact ⟨hplain start _ _ hmain, fun part hpart => hplain start _ part (hsecondary part hpart)⟩
  have hreports : ∃ report report',
      (rootRegistry ()).report ⟨"a.4gl"⟩ "MAIN\nEND" = .ok report ∧
        (rootRegistry 0).report ⟨"b.4gl"⟩ "MAIN\r\nEND" = .ok report' ∧
        report.text = report'.text := ⟨_, _, rfl, rfl, by decide +kernel⟩
  obtain ⟨report, report', hreport, hreport', htext⟩ := hreports
  obtain ⟨shown, shown', hshows, hshows', heq⟩ := shown_eq_of_text_eq hreport hreport'
  have hsame := heq (hshown () _ _ _ _ (by decide +kernel) hshows)
    (hshown 0 _ _ _ _ (by decide +kernel) hshows') htext
  exact ⟨report, report', hreport, hreport', htext, shown, shown', hshows, hshows', hsame.2.2.1⟩

end GrammarRegistry

end HighlightGrammar

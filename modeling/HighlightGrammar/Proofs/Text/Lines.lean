import HighlightGrammar.Baseline.Report

/-!
# Texts made of lines

The lines of a text hold no line feeds. Texts that are joined by a separator can be told apart again
when none of them holds the separator. -/
namespace HighlightGrammar

namespace Text

theorem lines_ne_nil (text : List Char) : lines text ≠ [] := by
  fun_induction lines text with
  | case1 => nofun
  | case2 rest ih => nofun
  | case3 rest _ ih => nofun
  | case4 rest ih => nofun
  | case5 c rest _ _ _ ih =>
    cases hlines : lines rest with
    | nil => exact absurd hlines ih
    | cons line others => nofun

theorem not_mem_lines (text : List Char) : ∀ line ∈ lines text, '\n' ∉ line := by
  fun_induction lines text with
  | case1 => simp
  | case2 rest ih => exact List.forall_mem_cons.2 ⟨nofun, ih⟩
  | case3 rest _ ih => exact List.forall_mem_cons.2 ⟨nofun, ih⟩
  | case4 rest ih => exact List.forall_mem_cons.2 ⟨nofun, ih⟩
  | case5 c rest _ _ hfeed ih =>
    have hc : '\n' ≠ c := fun heq => hfeed heq.symm
    cases hlines : lines rest with
    | nil => exact absurd hlines (lines_ne_nil rest)
    | cons front others =>
      rw [hlines, List.forall_mem_cons] at ih
      refine List.forall_mem_cons.2 ⟨?_, ih.2⟩
      rw [List.mem_cons, not_or]
      exact ⟨hc, ih.1⟩

theorem splitLines_ne_nil (text : String) : splitLines text ≠ [] := by
  rw [splitLines, ne_eq, List.map_eq_nil_iff]
  exact lines_ne_nil _

theorem not_mem_splitLines {line text : String} (h : line ∈ splitLines text) :
    '\n' ∉ line.toList := by
  obtain ⟨chars, hchars, rfl⟩ := List.mem_map.1 h
  rw [String.toList_ofList]
  exact not_mem_lines _ chars hchars

end Text

theorem not_mem_intercalate {separator : String} {c : Char} {parts : List String}
    (hseparator : c ∉ separator.toList) (hfree : ∀ part ∈ parts, c ∉ part.toList) :
    c ∉ (separator.intercalate parts).toList := by
  induction parts with
  | nil => simp
  | cons part parts ih =>
    rw [List.forall_mem_cons] at hfree
    cases parts with
    | nil =>
      rw [String.intercalate_singleton]
      exact hfree.1
    | cons next parts =>
      rw [String.intercalate_cons_cons]
      simp only [String.toList_append, List.mem_append, not_or]
      exact ⟨⟨hfree.1, hseparator⟩, ih hfree.2⟩

/-- Parts without the separator can be read off what they are joined to. -/
theorem eq_of_intercalate_eq {separator : String} {c : Char} (hseparator : separator.toList = [c])
    {parts others : List String} (hparts : parts ≠ []) (hothers : others ≠ [])
    (hfree : ∀ part ∈ parts, c ∉ part.toList) (hfree' : ∀ part ∈ others, c ∉ part.toList)
    (h : separator.intercalate parts = separator.intercalate others) : parts = others := by
  have hsplit : ∀ parts : List String, parts ≠ [] → (∀ part ∈ parts, c ∉ part.toList) →
      (separator.intercalate parts).toList.splitOn c = parts.map String.toList := by
    intro parts hne hfree
    rw [String.toList_intercalate, hseparator]
    refine List.splitOn_intercalate c ?_ (by simpa using hne)
    intro chars hchars
    obtain ⟨part, hpart, rfl⟩ := List.mem_map.1 hchars
    exact hfree part hpart
  have hmaps : parts.map String.toList = others.map String.toList := by
    rw [← hsplit parts hparts hfree, ← hsplit others hothers hfree', h]
  exact (List.map_inj_right fun _ _ => String.toList_inj.1).1 hmaps

theorem eq_of_joinLines_eq {lines others : List String} (hlines : lines ≠ []) (hothers : others ≠ [])
    (hfree : ∀ line ∈ lines, '\n' ∉ line.toList) (hfree' : ∀ line ∈ others, '\n' ∉ line.toList)
    (h : joinLines lines = joinLines others) : lines = others :=
  eq_of_intercalate_eq rfl hlines hothers hfree hfree' h

theorem joinLines_append {lines others : List String} (hlines : lines ≠ []) (hothers : others ≠ []) :
    joinLines (lines ++ others) = joinLines lines ++ "\n" ++ joinLines others :=
  String.intercalate_append_of_ne_nil hlines hothers

theorem joinLines_pair (first second : String) :
    joinLines [first, second] = first ++ "\n" ++ second := by
  rw [joinLines, String.intercalate_cons_cons, String.intercalate_singleton]

end HighlightGrammar

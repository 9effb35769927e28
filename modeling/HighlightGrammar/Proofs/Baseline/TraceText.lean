import HighlightGrammar.Proofs.Baseline.Reports
import HighlightGrammar.Proofs.Text.Lines

/-!
# Reading a trace back

The lines of a trace tell by their first character whether they show a line of the text or stand
below one. Below it each token has a line of blanks and carets, which tells where it starts and
ends, and a line of words. The last word is the mark exactly if the token is foreign, because no
kind owns the mark, so the words tell the scopes. -/
namespace HighlightGrammar

/-- What has a property in front of what has not can be told apart. -/
theorem append_inj_of_front {α : Type} {P : α → Prop} {front front' rest rest' : List α}
    (hfront : ∀ a ∈ front, P a) (hfront' : ∀ a ∈ front', P a) (hrest : ∀ a ∈ rest.head?, ¬ P a)
    (hrest' : ∀ a ∈ rest'.head?, ¬ P a) (h : front ++ rest = front' ++ rest') :
    front = front' ∧ rest = rest' := by
  -- Where one front ends first, the other one goes on with what may not follow it.
  induction front generalizing front' with
  | nil =>
    cases front' with
    | nil => exact ⟨rfl, h⟩
    | cons a front' =>
      rw [List.nil_append] at h
      exact absurd (hfront' a (by simp)) (hrest a (by simp [h]))
  | cons a front ih =>
    cases front' with
    | nil =>
      rw [List.nil_append] at h
      exact absurd (hfront a (by simp)) (hrest' a (by simp [← h]))
    | cons b front' =>
      obtain ⟨rfl, htail⟩ := List.cons.inj h
      obtain ⟨rfl, hrests⟩ := ih (fun c hc => hfront c (by simp [hc]))
        (fun c hc => hfront' c (by simp [hc])) htail
      exact ⟨rfl, hrests⟩

/-- A line that stands below a line of the text. -/
def IsBelow (line : String) : Prop := line.toList.head? = some ' '

namespace Token

variable {kind kind' : Kind} {token token' : Token}

theorem isBelow_margin_append (token : Token) (text : String) : IsBelow (token.margin ++ text) := by
  simp [IsBelow, margin, List.replicate_succ]

/-- The line of carets tells where a token starts and how long it is. -/
theorem eq_of_marker_eq (h : token.marker = token'.marker) :
    token.start = token'.start ∧ token.length = token'.length := by
  have hchars := congrArg String.toList h
  simp only [marker, margin, String.toList_append, String.toList_ofList] at hchars
  have hblanks := congrArg (List.count ' ') hchars
  have hcarets := congrArg (List.count '^') hchars
  simp only [List.count_append, List.count_replicate] at hblanks hcarets
  exact ⟨by simpa using hblanks, by simpa using hcarets⟩

/-- The words behind the margin: the scopes and, at a foreign token, the mark. -/
def words (kind : Kind) (token : Token) : List String :=
  if kind.ownsToken token then token.scopes else token.scopes ++ [foreignMark]

theorem scopeLine_eq_words (hscopes : token.scopes ≠ []) :
    token.scopeLine kind = token.margin ++ " ".intercalate (token.words kind) := by
  rw [scopeLine, words]
  split
  · rw [String.append_empty]
  · rw [String.intercalate_append_of_ne_nil hscopes (by simp), String.intercalate_singleton,
      String.append_assoc, String.append_assoc]

theorem not_ownsScope_foreignMark (kind : Kind) : kind.ownsScope foreignMark = false := by
  cases kind <;> decide

theorem foreignMark_not_mem_scopes (h : kind.ownsToken token = true) :
    foreignMark ∉ token.scopes := by
  intro hmark
  have howns := List.all_eq_true.1 h foreignMark hmark
  rw [not_ownsScope_foreignMark] at howns
  cases howns

theorem words_ne_nil (hscopes : token.scopes ≠ []) : token.words kind ≠ [] := by
  rw [words]
  split
  · exact hscopes
  · simp

/-- The mark comes last at foreign tokens only, so the words tell the scopes. -/
theorem scopes_eq_of_words_eq (h : token.words kind = token'.words kind') :
    token.scopes = token'.scopes := by
  rw [words, words] at h
  split at h
  · next howned =>
    split at h
    · exact h
    · have hmark : foreignMark ∈ token.scopes := by simp [h]
      exact absurd hmark (foreignMark_not_mem_scopes howned)
  · split at h
    · next howned =>
      have hmark : foreignMark ∈ token'.scopes := by simp [← h]
      exact absurd hmark (foreignMark_not_mem_scopes howned)
    · exact List.append_cancel_right h

/-- The scopes of a token are words. -/
def HasPlainScopes (token : Token) : Prop :=
  ∀ scope ∈ token.scopes, ' ' ∉ scope.toList ∧ '\n' ∉ scope.toList

theorem not_mem_words (h : token.HasPlainScopes) : ∀ word ∈ token.words kind, ' ' ∉ word.toList := by
  intro word hword
  rw [words] at hword
  split at hword
  · exact (h word hword).1
  · rcases List.mem_append.1 hword with hword | hword
    · exact (h word hword).1
    · rw [List.mem_singleton.1 hword]
      decide

/-- Valid tokens are told by the two lines below their line. -/
theorem eq_of_lines_eq {length length' : Nat} (hvalid : token.validate length = .ok ())
    (hvalid' : token'.validate length' = .ok ()) (hplain : token.HasPlainScopes)
    (hplain' : token'.HasPlainScopes) (hmarker : token.marker = token'.marker)
    (hline : token.scopeLine kind = token'.scopeLine kind') : token = token' := by
  obtain ⟨hstop, -, hscopes⟩ := (validate_eq_ok_iff _ _).1 hvalid
  obtain ⟨hstop', -, hscopes'⟩ := (validate_eq_ok_iff _ _).1 hvalid'
  obtain ⟨hstart, hlength⟩ := eq_of_marker_eq hmarker
  have hmargin : token.margin = token'.margin := by rw [margin, margin, hstart]
  rw [scopeLine_eq_words hscopes, scopeLine_eq_words hscopes', hmargin] at hline
  have hwords := eq_of_intercalate_eq rfl (words_ne_nil hscopes) (words_ne_nil hscopes')
    (not_mem_words hplain) (not_mem_words hplain') ((String.append_right_inj _).1 hline)
  have hsame := scopes_eq_of_words_eq hwords
  rw [Token.length, Token.length] at hlength
  cases token
  cases token'
  simp only [mk.injEq]
  exact ⟨hstart, by dsimp only at *; omega, hsame⟩

end Token

namespace TracedLine

variable {kind kind' : Kind} {line line' : TracedLine}

/-- What stands below a line. -/
def below (kind : Kind) (tokens : List Token) : List String :=
  tokens.flatMap fun token => [token.marker, token.scopeLine kind]

theorem isBelow_of_mem_below {tokens : List Token} : ∀ shown ∈ below kind tokens, IsBelow shown := by
  intro shown hshown
  obtain ⟨token, -, hline⟩ := List.mem_flatMap.1 hshown
  rcases List.mem_cons.1 hline with rfl | hline
  · exact token.isBelow_margin_append _
  · rw [List.mem_singleton.1 hline, Token.scopeLine, String.append_assoc]
    exact token.isBelow_margin_append _

theorem not_isBelow_echo (text : String) : ¬ IsBelow (">" ++ text) := by
  simp [IsBelow]

/-- The scopes of a line are words. -/
def HasPlainScopes (line : TracedLine) : Prop := ∀ token ∈ line.tokens, token.HasPlainScopes

theorem tokens_eq_of_below_eq {length length' : Nat} {tokens tokens' : List Token}
    (hvalid : ∀ token ∈ tokens, token.validate length = .ok ())
    (hvalid' : ∀ token ∈ tokens', token.validate length' = .ok ())
    (hplain : ∀ token ∈ tokens, token.HasPlainScopes)
    (hplain' : ∀ token ∈ tokens', token.HasPlainScopes)
    (h : below kind tokens = below kind' tokens') : tokens = tokens' := by
  induction tokens generalizing tokens' with
  | nil =>
    cases tokens' with
    | nil => rfl
    | cons token tokens' => cases h
  | cons token tokens ih =>
    cases tokens' with
    | nil => cases h
    | cons token' tokens' =>
      obtain ⟨hmarker, htail⟩ := List.cons.inj h
      obtain ⟨hline, hrest⟩ := List.cons.inj htail
      rw [List.forall_mem_cons] at hvalid hvalid' hplain hplain'
      have hfirst := Token.eq_of_lines_eq hvalid.1 hvalid'.1 hplain.1 hplain'.1 hmarker hline
      rw [hfirst, ih hvalid.2 hvalid'.2 hplain.2 hplain'.2 hrest]

/-- Traced lines are told by how they are shown. -/
theorem eq_of_render_eq {lines lines' : List TracedLine} (hvalid : ∀ line ∈ lines, line.Valid)
    (hvalid' : ∀ line ∈ lines', line.Valid) (hplain : ∀ line ∈ lines, line.HasPlainScopes)
    (hplain' : ∀ line ∈ lines', line.HasPlainScopes)
    (h : lines.flatMap (render kind) = lines'.flatMap (render kind')) : lines = lines' := by
  have hfront : ∀ (kind : Kind) (lines : List TracedLine),
      ∀ shown ∈ (lines.flatMap (render kind)).head?, ¬ IsBelow shown := by
    intro kind lines shown hshown
    cases lines with
    | nil => cases hshown
    | cons line lines => exact Option.some.inj hshown ▸ not_isBelow_echo line.text
  induction lines generalizing lines' with
  | nil =>
    cases lines' with
    | nil => rfl
    | cons line lines' => cases h
  | cons line lines ih =>
    cases lines' with
    | nil => cases h
    | cons line' lines' =>
      -- What stands below the first line goes as far as the next line of the text.
      obtain ⟨hecho, htail⟩ := List.cons.inj h
      have htext := (String.append_right_inj _).1 hecho
      rw [List.forall_mem_cons] at hvalid hvalid' hplain hplain'
      obtain ⟨hbelow, hrest⟩ := append_inj_of_front isBelow_of_mem_below isBelow_of_mem_below
        (hfront kind lines) (hfront kind' lines') htail
      have htokens := tokens_eq_of_below_eq hvalid.1 hvalid'.1 hplain.1 hplain'.1 hbelow
      have hline : line = line' := by
        cases line
        cases line'
        exact mk.injEq .. |>.mpr ⟨htext, htokens⟩
      rw [hline, ih hvalid.2 hvalid'.2 hplain.2 hplain'.2 hrest]

end TracedLine

end HighlightGrammar

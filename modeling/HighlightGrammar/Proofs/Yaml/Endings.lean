import HighlightGrammar.Text.Blank
import HighlightGrammar.Yaml.Writer
import Mathlib.Data.List.Basic
import Mathlib.Data.List.TakeWhile

/-!
# How written trees end

The text of a tree ends with the text of its last scalar or empty collection, and a line feed is
added if that is none. Without its white space at the end, and with one line feed instead, it is the
same text unless that scalar is a string whose own end is white space: a plain string that ends so,
or a string of several lines in which white space stands at the end or in front of the last line
feed. Quotes and everything else keep the end whole. -/
namespace HighlightGrammar

namespace Text

theorem isBlank_of_isBreak {c : Char} (h : Yaml.isBreak c = true) : isBlank c = true := by
  simp only [Yaml.isBreak, Bool.or_eq_true, beq_iff_eq] at h
  rcases h with (((rfl | rfl) | h) | h) | h
  · decide
  · decide
  all_goals
    rw [isBlank, h]
    decide

theorem not_isBlank_of_isDigit {c : Char} (h : c.isDigit = true) : isBlank c = false := by
  simp only [Char.isDigit, Bool.and_eq_true, decide_eq_true_eq] at h
  have hlow : 48 ≤ c.toNat := h.1
  have hhigh : c.toNat ≤ 57 := h.2
  simp only [isBlank, inRanges, blanks, List.any_cons, List.any_nil, Bool.or_false,
    Bool.or_eq_false_iff, Bool.and_eq_false_iff, decide_eq_false_iff_not]
  omega

end Text

section Numbers

open Decimal

/-- A text that holds characters, none of them white space. -/
def Solid (text : List Char) : Prop := text ≠ [] ∧ ∀ c ∈ text, Text.isBlank c = false

theorem not_isBlank_of_all {text : List Char} (h : text.all (!Text.isBlank ·) = true) :
    ∀ c ∈ text, Text.isBlank c = false := by
  simpa using h

theorem solid_of_all {c : Char} {text : List Char}
    (h : (c :: text).all (!Text.isBlank ·) = true) : Solid (c :: text) :=
  ⟨List.cons_ne_nil _ _, not_isBlank_of_all h⟩

theorem Solid.append {front text : List Char} (hfront : ∀ c ∈ front, Text.isBlank c = false)
    (h : Solid text) : Solid (front ++ text) :=
  ⟨List.append_ne_nil_of_right_ne_nil _ h.1, List.forall_mem_append.2 ⟨hfront, h.2⟩⟩

theorem solid_digits (n : Nat) : Solid (toString n).toList := by
  rw [Nat.toString_eq_ofList_toDigits, String.toList_ofList]
  refine ⟨Nat.toDigits_ne_nil, fun c hc => Text.not_isBlank_of_isDigit ?_⟩
  exact Nat.isDigit_of_mem_toDigits (by decide) (by decide) hc

theorem solid_sign (negative : Bool) {text : List Char} (h : Solid text) :
    Solid ((if negative = true then ['-'] else []) ++ text) := by
  refine h.append (not_isBlank_of_all ?_)
  cases negative <;> rfl

theorem Layout.solid_point (layout : Layout) {digits : List Char} (h : Solid digits) (lead : Int) :
    Solid (layout.point digits lead) := by
  have hzeros : ∀ n, ∀ c ∈ List.replicate n '0', Text.isBlank c = false := by
    intro n c hc
    rw [List.eq_of_mem_replicate hc]
    decide
  have hpoint : Text.isBlank '.' = false ∧ Text.isBlank '0' = false := by decide
  unfold Layout.point
  split
  · have hfront : ∀ c ∈ '0' :: '.' :: List.replicate (-lead - 1).toNat '0',
        Text.isBlank c = false := by simp [hpoint]
    exact h.append hfront
  · dsimp only
    split
    · refine ⟨by simp [h.1], ?_⟩
      have hend : ∀ c ∈ (if layout.pointZero = true then ['.', '0'] else []),
          Text.isBlank c = false := by
        refine not_isBlank_of_all ?_
        cases layout.pointZero <;> rfl
      simp only [List.forall_mem_append]
      exact ⟨⟨h.2, hzeros _⟩, hend⟩
    · refine ⟨by simp, ?_⟩
      simp only [List.forall_mem_append, List.forall_mem_cons]
      exact ⟨fun c hc => h.2 c (List.mem_of_mem_take hc), hpoint.1,
        fun c hc => h.2 c (List.mem_of_mem_drop hc)⟩

theorem Layout.solid_scientific (layout : Layout) {digits : List Char} (h : Solid digits)
    (lead : Int) : Solid (layout.scientific digits lead) := by
  have hsign : ∀ c ∈ (if lead < 0 then ['-'] else if layout.signedExponent = true then ['+']
      else []), Text.isBlank c = false := by
    split
    · exact not_isBlank_of_all rfl
    · split <;> exact not_isBlank_of_all rfl
  unfold Layout.scientific
  refine (solid_digits lead.natAbs).append (List.forall_mem_append.2 ⟨?_, ?_⟩)
  · split
    · obtain ⟨-, hdigits⟩ := h
      simp only [List.forall_mem_cons] at hdigits ⊢
      exact ⟨hdigits.1, by decide, hdigits.2⟩
    · exact h.2
  · exact List.forall_mem_cons.2 ⟨by decide, hsign⟩

/-- The text of a number holds no white space. -/
theorem Number.solid_text (number : Number) : Solid number.text.toList := by
  cases number with
  | int value =>
    cases value with
    | ofNat n => exact solid_digits n
    | negSucc n =>
      have htext : (Number.text (.int (.negSucc n))).toList = '-' :: (toString (n + 1)).toList :=
        String.toList_append
      rw [htext]
      exact solid_sign true (solid_digits (n + 1))
  | float value =>
    rw [Number.text, Layout.render]
    split
    · exact solid_of_all rfl
    · split
      · rw [String.toList_ofList]
        exact solid_sign _ (solid_of_all rfl)
      · split
        · rw [String.toList_ofList]
          exact solid_sign _ (Layout.solid_point _ (solid_of_all rfl) 0)
        · rw [String.toList_ofList]
          refine solid_sign _ ?_
          unfold Layout.decimal
          dsimp only
          split
          · exact Layout.solid_point _ (solid_digits _) _
          · exact Layout.solid_scientific _ (solid_digits _) _

end Numbers

namespace Yaml

/-- Nothing is lost of a text, given last character first, when the white space at its end is cut
off and a line feed is put there. -/
def Written.isWhole : Written → Bool
  | '\n' :: c :: _ => !Text.isBlank c
  | c :: _ => !Text.isBlank c
  | [] => false

namespace Written

theorem isWhole_cons {c : Char} (h : c ≠ '\n') (rest : Written) :
    isWhole (c :: rest) = !Text.isBlank c := by
  unfold isWhole
  split
  · next heq => exact absurd (List.cons.inj heq).1 h
  · next heq => rw [(List.cons.inj heq).1]
  · next heq => cases heq

theorem isWhole_feed_cons (c : Char) (rest : Written) :
    isWhole ('\n' :: c :: rest) = !Text.isBlank c := rfl

/-- The end of a text tells whether it is whole. -/
theorem isWhole_append {text : Written} (h : text ≠ []) (hfeed : text ≠ ['\n']) (front : Written) :
    isWhole (text ++ front) = isWhole text := by
  match text with
  | [] => exact absurd rfl h
  | [c] =>
    have hc : c ≠ '\n' := by
      rintro rfl
      exact hfeed rfl
    rw [List.singleton_append, isWhole_cons hc, isWhole_cons hc]
  | c :: d :: rest =>
    by_cases hc : c = '\n'
    · subst hc
      rfl
    · rw [List.cons_append, isWhole_cons hc, isWhole_cons hc]

/-- Cutting off the white space at the end and putting a line feed there gives back the text, to
which a line feed is added if no line has ended, exactly if it is whole. -/
theorem feed_cons_dropWhile_eq_iff {out : Written} (h : out ≠ ['\n']) :
    '\n' :: (out.line 0).dropWhile Text.isBlank = out.line 0 ↔ out.isWhole = true := by
  have hkept : ∀ rest : Written, rest.dropWhile Text.isBlank = rest ↔
      rest = [] ∨ ∃ c tail, rest = c :: tail ∧ Text.isBlank c = false := by
    intro rest
    rw [List.dropWhile_eq_self_iff]
    cases rest with
    | nil => simp
    | cons c tail => simp
  match out with
  | [] => decide
  | c :: rest =>
    have hline : Written.line (c :: rest) 0 = if isBreak c then c :: rest else '\n' :: c :: rest :=
      List.nil_append _
    rw [hline]
    by_cases hbreak : isBreak c = true
    · have hblank := Text.isBlank_of_isBreak hbreak
      rw [if_pos hbreak, List.dropWhile_cons_of_pos hblank]
      by_cases hc : c = '\n'
      · subst hc
        rw [List.cons_eq_cons, hkept]
        match rest with
        | [] => exact absurd rfl h
        | d :: tail => simp [isWhole_feed_cons]
      · rw [isWhole_cons hc, hblank, List.cons_eq_cons]
        exact iff_of_false (fun heq => hc heq.1.symm) (by decide)
    · have hfeed : Text.isBlank '\n' = true := by decide
      have hc : c ≠ '\n' := by
        rintro rfl
        exact hbreak (by decide)
      rw [if_neg hbreak, List.dropWhile_cons_of_pos hfeed, List.cons_eq_cons, hkept,
        isWhole_cons hc]
      simp

end Written

/-- Whether a string that is written last keeps its end. Only quotes protect white space there. -/
def keepsEnd (text : List Char) : Bool :=
  match styleOf text with
  | .plain => Written.isWhole text.reverse
  | .literal => Written.isWhole text.reverse
  | .singleQuoted => true
  | .doubleQuoted => true

section Strings

/-- How the characters of a text are set in depends on what stands in front of them. -/
theorem exists_literalLines_append (indent : Nat) (front back : List Char) (atStart : Bool) :
    ∃ afterBreak, literalLines indent atStart (front ++ back) =
      literalLines indent atStart front ++ literalLines indent afterBreak back := by
  induction front generalizing atStart with
  | nil => exact ⟨atStart, rfl⟩
  | cons c front ih =>
    by_cases hbreak : isBreak c = true
    · obtain ⟨afterBreak, h⟩ := ih true
      exact ⟨afterBreak, by simp [literalLines, hbreak, h]⟩
    · obtain ⟨afterBreak, h⟩ := ih false
      exact ⟨afterBreak, by simp [literalLines, hbreak, h]⟩

/-- A text with its head ends as the text does. -/
theorem isWhole_literal (indent : Nat) {text : List Char} (h : text ≠ []) :
    Written.isWhole (literal indent text).reverse = Written.isWhole text.reverse := by
  obtain ⟨head, hliteral⟩ : ∃ head, literal indent text =
      head ++ '\n' :: literalLines indent true text := ⟨_, rfl⟩
  obtain ⟨front, c, rfl⟩ := List.eq_nil_or_concat' text |>.resolve_left h
  obtain ⟨afterBreak, hlines⟩ := exists_literalLines_append indent front [c] true
  rw [hliteral]
  by_cases hc : c = '\n'
  · subst hc
    rcases List.eq_nil_or_concat' front with rfl | ⟨front, d, rfl⟩
    · simp [literalLines, isBreak, Written.isWhole, Text.isBlank]
    · obtain ⟨afterBreak, hlast⟩ := exists_literalLines_append indent front [d, '\n'] true
      have hfeed : isBreak '\n' = true := by decide
      have hends : ∃ back, literalLines indent afterBreak [d, '\n'] = back ++ [d, '\n'] := by
        by_cases hbreak : isBreak d = true
        · exact ⟨[], by simp [literalLines, hbreak, hfeed]⟩
        · cases afterBreak with
          | false => exact ⟨[], by simp [literalLines, hbreak, hfeed]⟩
          | true => exact ⟨List.replicate indent ' ', by simp [literalLines, hbreak, hfeed]⟩
      obtain ⟨back, hback⟩ := hends
      rw [List.append_assoc, List.singleton_append, hlast, hback]
      simp [Written.isWhole_feed_cons]
  · have hends : ∃ back, literalLines indent afterBreak [c] = back ++ [c] := by
      by_cases hbreak : isBreak c = true
      · exact ⟨[], by simp [literalLines, hbreak]⟩
      · cases afterBreak with
        | false => exact ⟨[], by simp [literalLines, hbreak]⟩
        | true => exact ⟨List.replicate indent ' ', by simp [literalLines, hbreak]⟩
    obtain ⟨back, hback⟩ := hends
    rw [hlines, hback]
    simp [Written.isWhole_cons hc]

theorem ne_nil_of_styleOf {text : List Char} (h : styleOf text = .plain ∨ styleOf text = .literal) :
    text ≠ [] := by
  rintro rfl
  revert h
  decide

theorem not_mem_of_styleOf_plain {text : List Char} (h : styleOf text = .plain) :
    '\n' ∉ text := by
  intro hmem
  rw [styleOf, if_pos (List.contains_iff_mem.2 hmem)] at h
  split at h <;> cases h

/-- A string that is written ends as `keepsEnd` says, and holds more than a line feed. -/
theorem isWhole_stringText (indent : Nat) (text : List Char) :
    Written.isWhole (stringText indent text).reverse = keepsEnd text ∧
      stringText indent text ≠ [] ∧ stringText indent text ≠ ['\n'] := by
  unfold stringText keepsEnd
  cases hstyle : styleOf text with
  | plain =>
    refine ⟨rfl, ne_nil_of_styleOf (Or.inl hstyle), ?_⟩
    rintro rfl
    exact not_mem_of_styleOf_plain hstyle (by simp)
  | singleQuoted =>
    have hquote : '\'' ≠ '\n' ∧ Text.isBlank '\'' = false := by decide
    refine ⟨?_, by simp [singleQuoted], by simp [singleQuoted]⟩
    simp [singleQuoted, Written.isWhole_cons hquote.1, hquote.2]
  | doubleQuoted =>
    have hquote : '"' ≠ '\n' ∧ Text.isBlank '"' = false := by decide
    refine ⟨?_, by simp [doubleQuoted], by simp [doubleQuoted]⟩
    simp [doubleQuoted, Written.isWhole_cons hquote.1, hquote.2]
  | literal =>
    refine ⟨isWhole_literal indent (ne_nil_of_styleOf (Or.inr hstyle)), ?_, ?_⟩
    · simp [literal]
    · simp [literal]

end Strings

theorem Written.isWhole_of_solid {text : List Char} (h : Solid text) :
    Written.isWhole text.reverse = true := by
  obtain ⟨front, c, rfl⟩ := List.eq_nil_or_concat' text |>.resolve_left h.1
  have hc : Text.isBlank c = false := h.2 c (by simp)
  have hfeed : c ≠ '\n' := by
    rintro rfl
    exact absurd hc (by decide)
  rw [List.reverse_append, List.reverse_singleton, List.singleton_append, isWhole_cons hfeed, hc]
  rfl

section Trees

mutual

/-- The scalar or empty collection that is written last. -/
def lastLeaf : Tree → Tree
  | .sequence items => lastItemLeaf (.sequence []) items
  | .mapping entries => lastValueLeaf (.mapping []) entries
  | .tagged _ content => lastLeaf content
  | tree => tree
termination_by structural tree => tree

/-- What is written last of items behind a leaf. -/
def lastItemLeaf (leaf : Tree) : List Tree → Tree
  | [] => leaf
  | item :: items => lastItemLeaf (lastLeaf item) items
termination_by structural items => items

/-- What is written last of entries behind a leaf. -/
def lastValueLeaf (leaf : Tree) : List (Tree × Tree) → Tree
  | [] => leaf
  | (_, value) :: entries => lastValueLeaf (lastLeaf value) entries
termination_by structural entries => entries

end

/-- A text that is being written ends with the text of a leaf. -/
def Written.EndsWith (out : Written) (leaf : Tree) : Prop :=
  ∃ indent text front, inline? indent leaf = some text ∧ out = text.reverse ++ front

theorem endsWith_putPiece {indent : Nat} {leaf : Tree} {text : List Char}
    (h : inline? indent leaf = some text) (place : Place) (tagged : Bool) (out : Written) :
    (putPiece place tagged ((inline? indent leaf).getD []) out).EndsWith leaf := by
  rw [h, Option.getD_some, putPiece]
  split
  · exact ⟨indent, text, out, h, rfl⟩
  · refine ⟨indent, text, ' ' :: out, h, ?_⟩
    rw [Written.put, List.reverse_cons, List.append_assoc, List.singleton_append]

mutual

/-- A node that has been written ends with its last leaf. -/
theorem endsWith_writeNode (outer : Option Nat) (place : Place) (tagged : Bool) (tree : Tree)
    (out : Written) : (writeNode outer place tagged tree out).EndsWith (lastLeaf tree) := by
  match tree with
  | .null => exact endsWith_putPiece rfl place tagged out
  | .bool _ => exact endsWith_putPiece rfl place tagged out
  | .number _ => exact endsWith_putPiece rfl place tagged out
  | .string _ => exact endsWith_putPiece rfl place tagged out
  | .sequence [] => exact endsWith_putPiece rfl place tagged out
  | .mapping [] => exact endsWith_putPiece rfl place tagged out
  | .tagged _ content => exact endsWith_writeNode outer place true content _
  | .sequence (item :: items) =>
    exact endsWith_writeItems _ items (endsWith_writeNode _ .item false item _)
  | .mapping ((key, value) :: entries) =>
    rw [writeNode]
    refine endsWith_writeEntries _ entries ?_
    split
    · exact endsWith_writeNode _ .value false value _
    · exact endsWith_writeNode _ .own false value _

theorem endsWith_writeItems (column : Nat) (items : List Tree) {leaf : Tree} {out : Written}
    (h : out.EndsWith leaf) : (writeItems column items out).EndsWith (lastItemLeaf leaf items) := by
  match items with
  | [] => exact h
  | item :: items => exact endsWith_writeItems column items (endsWith_writeNode _ .item false item _)

theorem endsWith_writeEntries (column : Nat) (entries : Entries) {leaf : Tree} {out : Written}
    (h : out.EndsWith leaf) :
    (writeEntries column entries out).EndsWith (lastValueLeaf leaf entries) := by
  match entries with
  | [] => exact h
  | (key, value) :: entries =>
    rw [writeEntries]
    refine endsWith_writeEntries column entries ?_
    split
    · exact endsWith_writeNode _ .value false value _
    · exact endsWith_writeNode _ .own false value _

end

/-- Whether a leaf that is written last keeps its end. -/
def leafKeepsEnd : Tree → Bool
  | .string text => keepsEnd text.toList
  | _ => true

theorem isWhole_inline {indent : Nat} {leaf : Tree} {text : List Char}
    (h : inline? indent leaf = some text) :
    Written.isWhole text.reverse = leafKeepsEnd leaf ∧ text ≠ [] ∧ text ≠ ['\n'] := by
  have hsolid : ∀ written : List Char, Solid written →
      Written.isWhole written.reverse = true ∧ written ≠ [] ∧ written ≠ ['\n'] := by
    intro written hwritten
    refine ⟨Written.isWhole_of_solid hwritten, hwritten.1, ?_⟩
    rintro rfl
    exact absurd (hwritten.2 '\n' (by simp)) (by decide)
  match leaf with
  | .null =>
    obtain rfl := Option.some.inj h
    exact hsolid _ (solid_of_all rfl)
  | .bool value =>
    obtain rfl := Option.some.inj h
    cases value with
    | false => exact hsolid _ (solid_of_all rfl)
    | true => exact hsolid _ (solid_of_all rfl)
  | .number value =>
    obtain rfl := Option.some.inj h
    exact hsolid _ value.solid_text
  | .string text =>
    obtain rfl := Option.some.inj h
    exact isWhole_stringText indent text.toList
  | .sequence [] =>
    obtain rfl := Option.some.inj h
    exact hsolid _ (solid_of_all rfl)
  | .mapping [] =>
    obtain rfl := Option.some.inj h
    exact hsolid _ (solid_of_all rfl)
  | .sequence (_ :: _) => cases h
  | .mapping (_ :: _) => cases h
  | .tagged _ _ => cases h

/-- Whether the text of a tree keeps its end when it is trimmed. -/
def treeKeepsEnd (tree : Tree) : Bool := leafKeepsEnd (lastLeaf tree)

/-- The text of a tree that ends with one line feed instead of its white space is the text itself
exactly if the tree keeps its end. -/
theorem trimEnd_write_eq_iff {tree : Tree} {text : String} (h : write tree = .ok text) :
    Text.trimEnd text ++ "\n" = text ↔ treeKeepsEnd tree = true := by
  obtain ⟨indent, leaf, front, hleaf, hout⟩ := endsWith_writeNode none .root false tree []
  obtain ⟨hwhole, hne, hfeed⟩ := isWhole_inline hleaf
  have htext : String.ofList ((writeNode none .root false tree []).line 0).reverse = text := by
    unfold write at h
    split at h
    · cases h
    · exact Except.ok.inj h
  have hback : leaf.reverse ≠ ['\n'] := by
    rw [ne_eq, ← List.reverse_singleton, List.reverse_inj]
    exact hfeed
  have hlonger : leaf.reverse ++ front ≠ ['\n'] := by
    intro heq
    rcases List.append_eq_singleton_iff.1 heq with ⟨hnil, -⟩ | ⟨hone, -⟩
    · exact hne (List.reverse_eq_nil_iff.1 hnil)
    · exact hback hone
  have hnil : leaf.reverse ≠ [] := fun heq => hne (List.reverse_eq_nil_iff.1 heq)
  rw [hout] at htext
  rw [treeKeepsEnd, ← hwhole, ← Written.isWhole_append hnil hback front,
    ← Written.feed_cons_dropWhile_eq_iff hlonger, ← htext, ← String.toList_inj,
    String.toList_append, Text.trimEnd, String.toList_ofList, String.toList_ofList,
    List.reverse_reverse, ← List.reverse_inj, List.reverse_append, List.reverse_reverse,
    List.reverse_reverse]
  rfl

end Trees

end Yaml

end HighlightGrammar

import HighlightGrammar.Proofs.Baseline.Reports
import HighlightGrammar.Proofs.Text.Folding
import HighlightGrammar.Proofs.Variables.Replacement

/-!
# Opting out

A document opts out of the check against the other grammar when a directive stands somewhere in its
first line. The search tries every place of the line. At each one it skips all white space behind
two slashes; the word that opts out starts with none, so no directive is lost by that. -/
namespace HighlightGrammar

open Placeholder (SameName)

/-- What opts out: two slashes, white space if there is any, and the word, letter case aside. -/
def IsDirective (text : List Char) : Prop :=
  ∃ blank word, text = '/' :: '/' :: (blank ++ word) ∧ (∀ c ∈ blank, Text.isBlank c = true) ∧
    SameName optOutWord word

theorem startsWithFold_eq_isSome (word text : List Char) :
    startsWithFold word text = (afterName? word text).isSome := by
  fun_induction startsWithFold word text with
  | case1 => rfl
  | case2 w word c text ih =>
    rw [afterName?, ih]
    cases Text.sameFold w c <;> rfl
  | case3 => rfl

theorem startsWithFold_iff {word text : List Char} :
    startsWithFold word text = true ↔ ∃ found, found <+: text ∧ SameName word found := by
  rw [startsWithFold_eq_isSome, Option.isSome_iff_exists]
  simp only [afterName?_eq_some_iff]
  constructor
  · rintro ⟨rest, found, rfl, hsame⟩
    exact ⟨found, List.prefix_append found rest, hsame⟩
  · rintro ⟨found, ⟨rest, rfl⟩, hsame⟩
    exact ⟨rest, found, rfl, hsame⟩

/-- A spelling of the word starts with its first character, which is not white space. -/
theorem exists_eq_cons_of_sameName_optOutWord {word : List Char} (h : SameName optOutWord word) :
    ∃ rest, word = '@' :: rest := by
  cases word with
  | nil => exact absurd h.length_eq (by decide)
  | cons c rest =>
    have hfold : Text.fold '@' = Text.fold c := (List.cons.inj h).1
    have hat : c = '@' := (Text.fold_eq_iff_of_not_isAlpha (by decide) (by decide)).1 hfold.symm
    exact ⟨rest, by rw [hat]⟩

/-- White space that stands before the word is exactly what is skipped. -/
theorem dropWhile_append_optOutWord {blank word : List Char}
    (hblank : ∀ c ∈ blank, Text.isBlank c = true) (hword : SameName optOutWord word)
    (back : List Char) :
    (blank ++ word ++ back).dropWhile Text.isBlank = word ++ back := by
  obtain ⟨rest, rfl⟩ := exists_eq_cons_of_sameName_optOutWord hword
  rw [List.append_assoc, List.dropWhile_append_of_pos hblank, List.cons_append,
    List.dropWhile_cons_of_neg (by decide)]

theorem startsWithFold_dropWhile_iff {rest : List Char} :
    startsWithFold optOutWord (rest.dropWhile Text.isBlank) = true ↔
      ∃ directive, IsDirective directive ∧ directive <+: '/' :: '/' :: rest := by
  rw [startsWithFold_iff]
  constructor
  · rintro ⟨word, ⟨back, hback⟩, hword⟩
    refine ⟨_, ⟨rest.takeWhile Text.isBlank, word, rfl,
      fun c hc => List.mem_takeWhile_imp hc, hword⟩, back, ?_⟩
    rw [List.cons_append, List.cons_append, List.append_assoc, hback,
      List.takeWhile_append_dropWhile]
  · rintro ⟨_, ⟨blank, word, rfl, hblank, hword⟩, back, hback⟩
    obtain rfl : blank ++ word ++ back = rest := by simpa using hback
    rw [dropWhile_append_optOutWord hblank hword]
    exact ⟨word, List.prefix_append word back, hword⟩

/-- A line opts out from its first character on, or from a later one on. -/
theorem optsOut_cons_iff {c : Char} {line : List Char} :
    optsOut (c :: line) = true ↔
      (∃ directive, IsDirective directive ∧ directive <+: c :: line) ∨ optsOut line = true := by
  -- Only at two slashes is anything looked for; elsewhere no directive starts.
  by_cases hslashes : ∃ rest, c :: line = '/' :: '/' :: rest
  · obtain ⟨rest, heq⟩ := hslashes
    obtain ⟨rfl, rfl⟩ := List.cons.inj heq
    rw [optsOut, Bool.or_eq_true, startsWithFold_dropWhile_iff]
  · have hno : ¬ ∃ directive, IsDirective directive ∧ directive <+: c :: line := by
      rintro ⟨_, ⟨blank, word, rfl, -⟩, back, hback⟩
      exact hslashes ⟨_, hback.symm⟩
    rw [optsOut, or_iff_right hno]
    rintro rest rfl rfl
    exact hslashes ⟨rest, rfl⟩

/-- A line opts out exactly when a directive stands in it. -/
theorem optsOut_iff {line : List Char} :
    optsOut line = true ↔ ∃ directive, IsDirective directive ∧ directive <:+: line := by
  induction line with
  | nil =>
    simp only [optsOut, Bool.false_eq_true, false_iff, not_exists, not_and]
    rintro _ ⟨blank, word, rfl, -⟩ hinfix
    cases List.eq_nil_of_infix_nil hinfix
  | cons c line ih =>
    rw [optsOut_cons_iff, ih]
    -- What stands in a line stands at its front or in what follows the first character.
    simp only [List.infix_cons_iff, and_or_left, exists_or]

/-- What stands around a line that opts out does not hide the directive. -/
theorem optsOut_append {line : List Char} (h : optsOut line = true) (front back : List Char) :
    optsOut (front ++ line ++ back) = true := by
  obtain ⟨directive, hdirective, hinfix⟩ := optsOut_iff.1 h
  exact optsOut_iff.2 ⟨directive, hdirective, hinfix.trans (List.infix_append front line back)⟩

theorem optsOut_toList_iff {line : String} :
    optsOut line.toList = true ↔ ∃ front blank word back : String,
      line = front ++ "//" ++ blank ++ word ++ back ∧
        (∀ c ∈ blank.toList, Text.isBlank c = true) ∧
        Text.sameFoldText word "@onlyOwnGrammar" = true := by
  rw [optsOut_iff]
  constructor
  · rintro ⟨_, ⟨blank, word, rfl, hblank, hword⟩, front, back, hline⟩
    refine ⟨String.ofList front, String.ofList blank, String.ofList word, String.ofList back,
      ?_, ?_, ?_⟩
    · rw [← String.toList_inj, ← hline]
      simp
    · rwa [String.toList_ofList]
    · rw [Text.sameFoldText_iff, String.toList_ofList]
      exact hword.symm
  · rintro ⟨front, blank, word, back, rfl, hblank, hword⟩
    refine ⟨_, ⟨blank.toList, word.toList, rfl, hblank, ?_⟩, front.toList, back.toList, ?_⟩
    · exact ((Text.sameFoldText_iff _ _).1 hword).symm
    · simp

/-- The word has no spelling beyond ASCII: it has neither an s nor a k. -/
theorem sameFoldText_optOutWord_iff (word : String) :
    Text.sameFoldText word "@onlyOwnGrammar" = true ↔ word.toLower = "@onlyowngrammar" := by
  have hfolded : "@onlyOwnGrammar".toList.map Text.fold = "@onlyowngrammar".toList := by
    decide +kernel
  have hplain : Text.FoldedFromAscii "@onlyowngrammar".toList := by decide +kernel
  have hlower : word.toLower.toList = word.toList.map Char.toLower := String.toList_map
  rw [Text.sameFoldText_iff, hfolded, hplain.map_fold_eq_iff, ← String.toList_inj, hlower]

namespace GrammarRegistry

theorem optedOut_cons (line : String) (later : List String) :
    optedOut (line :: later) = optsOut line.toList := rfl

/-- A document opts out exactly when it has a first line and a directive stands in it. Whatever
stands around the directive and in the later lines, it is not hidden; the word is spelled in the
letters of ASCII; and the other grammar is not asked for exactly if the document opts out. -/
theorem optedOut_iff_directive (path : Path) (lines : List String) :
    (optedOut lines = true ↔ ∃ first later, lines = first :: later ∧
      ∃ front blank word back : String, first = front ++ "//" ++ blank ++ word ++ back ∧
        (∀ c ∈ blank.toList, Text.isBlank c = true) ∧
        Text.sameFoldText word "@onlyOwnGrammar" = true) ∧
    (∀ front line back : String, ∀ later others : List String, optedOut (line :: later) = true →
      optedOut ((front ++ line ++ back) :: others) = true) ∧
    (∀ word : String,
      Text.sameFoldText word "@onlyOwnGrammar" = true ↔ word.toLower = "@onlyowngrammar") ∧
    GrammarSelection.of path lines = ⟨Kind.forFile path,
      if optedOut lines then none else some (Kind.forFile path).complement⟩ := by
  refine ⟨?_, ?_, sameFoldText_optOutWord_iff, rfl⟩
  · cases lines with
    | nil => simp [optedOut]
    | cons first later =>
      rw [optedOut_cons, optsOut_toList_iff]
      constructor
      · intro h
        exact ⟨first, later, rfl, h⟩
      · rintro ⟨_, _, heq, h⟩
        obtain ⟨rfl, -⟩ := List.cons.inj heq
        exact h
  · intro front line back later others h
    rw [optedOut_cons] at h ⊢
    rw [String.toList_append, String.toList_append]
    exact optsOut_append h front.toList back.toList

/-- A directive behind a broken one, with three slashes and an ideographic space. -/
theorem optedOut_iff_directive_behindBroken :
    optedOut ["MAIN // @only ///\u3000@ONLYowngrammar!", "END"] = true ∧
      GrammarSelection.of ⟨"a.4gl"⟩ ["MAIN // @only ///\u3000@ONLYowngrammar!", "END"] =
        ⟨.source, none⟩ := by
  have hdirective : optedOut ["///\u3000@ONLYowngrammar"] = true :=
    (optedOut_iff_directive ⟨"a.4gl"⟩ _).1.2 ⟨_, _, rfl, "/", "\u3000", "@ONLYowngrammar", "",
      by decide +kernel, List.all_eq_true.1 (by decide +kernel), by decide +kernel⟩
  have hout : optedOut ["MAIN // @only ///\u3000@ONLYowngrammar!", "END"] = true :=
    (optedOut_iff_directive ⟨"a.4gl"⟩ []).2.1 "MAIN // @only " "///\u3000@ONLYowngrammar" "!" []
      ["END"] hdirective
  refine ⟨hout, ?_⟩
  rw [(optedOut_iff_directive ⟨"a.4gl"⟩ _).2.2.2, if_pos hout]
  rfl

end GrammarRegistry

end HighlightGrammar

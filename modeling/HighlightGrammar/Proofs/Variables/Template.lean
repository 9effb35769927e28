import HighlightGrammar.Grammar.Placeholder
import HighlightGrammar.Proofs.Text.Folding
import Mathlib.Data.List.Infix
import Mathlib.Data.List.TakeWhile

/-!
# Templates

A template is text in which every pair of opening braces opens a placeholder. What stands between
its placeholders is literal: text that holds no pair of opening braces and does not end in an
opening brace. On a template one pass of a variable replaces exactly the placeholders of its name,
seam by seam, and leaves a template. -/
namespace HighlightGrammar

namespace Text

/-- Only braces fold to braces. -/
theorem eq_brace_of_fold {c : Char} (h : fold c = '{' ∨ fold c = '}') : c = '{' ∨ c = '}' :=
  h.imp (fold_eq_iff_of_not_isAlpha (by decide) (by decide)).1
    (fold_eq_iff_of_not_isAlpha (by decide) (by decide)).1

end Text

namespace Placeholder

/-- A text that can stand between the braces of a placeholder. -/
def IsName (name : List Char) : Prop := ∀ c ∈ name, isNameChar c = true

instance (name : List Char) : Decidable (IsName name) :=
  List.decidableBAll (fun c => isNameChar c = true) name

/-- Two spellings are one name: they agree up to letter case. -/
def SameName (a b : List Char) : Prop := a.map Text.fold = b.map Text.fold

instance (a b : List Char) : Decidable (SameName a b) :=
  inferInstanceAs (Decidable (a.map Text.fold = b.map Text.fold))

/-- A text holds the placeholder of a name, spelled exactly so. -/
def Occurs (name text : List Char) : Prop :=
  IsName name ∧ ∃ before after, text = before ++ write name ++ after

theorem SameName.symm {a b : List Char} (h : SameName a b) : SameName b a := Eq.symm h

theorem SameName.trans {a b c : List Char} (h : SameName a b) (h' : SameName b c) :
    SameName a c := Eq.trans h h'

theorem SameName.length_eq {a b : List Char} (h : SameName a b) : a.length = b.length := by
  simpa using congrArg List.length h

theorem isNameChar_iff {c : Char} : isNameChar c = true ↔ ¬(c = '{' ∨ c = '}') := by
  simp [isNameChar]

/-- A spelling of a name is a name. -/
theorem SameName.isName {a b : List Char} (h : SameName a b) (ha : IsName a) : IsName b := by
  intro c hc
  have hfold : Text.fold c ∈ a.map Text.fold := by
    rw [show a.map Text.fold = b.map Text.fold from h]
    exact List.mem_map_of_mem hc
  obtain ⟨d, hd, hdc⟩ := List.mem_map.1 hfold
  rw [isNameChar_iff]
  intro hbrace
  have hself : Text.fold c = c := by rcases hbrace with rfl | rfl <;> rfl
  rw [hself] at hdc
  exact isNameChar_iff.1 (ha d hd) (Text.eq_brace_of_fold (hdc ▸ hbrace))

private theorem takeWhile_name {name : List Char} (h : IsName name) (rest : List Char) :
    (name ++ '}' :: rest).takeWhile isNameChar = name := by
  rw [List.takeWhile_append_of_pos h]
  simp [isNameChar]

/-- The placeholder at the front of a text is told by the text. -/
theorem write_append_inj {a b : List Char} (ha : IsName a) (hb : IsName b) {x y : List Char}
    (h : write a ++ x = write b ++ y) : a = b ∧ x = y := by
  simp only [write, List.cons_append, List.append_assoc, List.nil_append, List.cons.injEq,
    true_and] at h
  have hab : a = b := by
    rw [← takeWhile_name ha ('}' :: x), h, takeWhile_name hb]
  subst hab
  simpa using h

/-- A text starts with the placeholder of a name exactly when that name is read off its front. -/
theorem nameAtFront?_eq_some_iff {text name : List Char} :
    nameAtFront? text = some name ↔ IsName name ∧ ∃ rest, text = write name ++ rest := by
  constructor
  · intro h
    unfold nameAtFront? at h
    split at h
    · next body =>
      split at h
      · next found rest hspan =>
        obtain rfl := Option.some.inj h
        rw [List.span_eq_takeWhile_dropWhile, Prod.mk.injEq] at hspan
        refine ⟨fun c hc => List.mem_takeWhile_imp (hspan.1 ▸ hc), rest, ?_⟩
        have hbody := List.takeWhile_append_dropWhile (p := isNameChar) (l := body)
        rw [hspan.1, hspan.2] at hbody
        simp [write, ← hbody]
      · cases h
    · cases h
  · rintro ⟨hname, rest, rfl⟩
    have hspan : (name ++ '}' :: '}' :: rest).span isNameChar = (name, '}' :: '}' :: rest) := by
      rw [List.span_eq_takeWhile_dropWhile, List.takeWhile_append_of_pos hname,
        List.dropWhile_append_of_pos hname]
      simp [isNameChar]
    simp only [write, List.cons_append, List.append_assoc, List.nil_append, nameAtFront?]
    rw [hspan]
    rfl

end Placeholder

open Placeholder

/-- The pair of braces that opens a placeholder. -/
def opening : List Char := ['{', '{']

theorem opening_prefix_write (name rest : List Char) : opening <+: write name ++ rest :=
  ⟨name ++ '}' :: '}' :: rest, by simp [opening, write]⟩

/-- Text that can stand between placeholders: it holds no pair of opening braces and does not end
in an opening brace. -/
def IsLiteral (text : List Char) : Prop := ¬ opening <:+: text ∧ text.getLast? ≠ some '{'

/-- A concatenation of literals and placeholders. -/
inductive IsTemplate : List Char → Prop where
  | nil : IsTemplate []
  | literal {text rest} (plain : IsLiteral text) (tail : IsTemplate rest) :
      IsTemplate (text ++ rest)
  | placeholder {name rest} (named : IsName name) (tail : IsTemplate rest) :
      IsTemplate (write name ++ rest)

theorem IsLiteral.tail {c : Char} {text : List Char} (h : IsLiteral (c :: text)) :
    IsLiteral text := by
  refine ⟨fun hin => h.1 (hin.trans (List.suffix_cons c text).isInfix), fun hlast => ?_⟩
  cases text with
  | nil => simp at hlast
  | cons d text => exact h.2 (by simpa using hlast)

/-- No placeholder starts inside a literal, whatever follows it. -/
theorem IsLiteral.not_opening_prefix {c : Char} {text : List Char} (h : IsLiteral (c :: text))
    (rest : List Char) : ¬ opening <+: c :: text ++ rest := by
  intro hopen
  obtain ⟨after, hafter⟩ := hopen
  simp only [opening, List.cons_append, List.nil_append, List.cons.injEq] at hafter
  obtain ⟨rfl, hnext⟩ := hafter
  cases text with
  | nil => exact h.2 rfl
  | cons d text =>
    simp only [List.cons_append, List.cons.injEq] at hnext
    obtain ⟨rfl, -⟩ := hnext
    exact h.1 ⟨[], text, rfl⟩

theorem isLiteral_of_no_brace {text : List Char} (h : ∀ c ∈ text, c ≠ '{') : IsLiteral text := by
  refine ⟨fun hin => h '{' (hin.subset (by simp [opening])) rfl, fun hlast => ?_⟩
  exact h '{' (List.mem_of_getLast? hlast) rfl

/-- Behind its first brace a placeholder reads as a literal. -/
theorem isLiteral_write_tail {name : List Char} (h : IsName name) :
    IsLiteral ('{' :: name ++ ['}', '}']) := by
  have hplain : ∀ c ∈ name ++ ['}', '}'], c ≠ '{' := by
    intro c hc
    rcases List.mem_append.1 hc with hc | hc
    · exact fun hbrace => isNameChar_iff.1 (h c hc) (Or.inl hbrace)
    · rintro rfl
      simp at hc
  refine ⟨fun hin => ?_, by simp [List.getLast?_cons]⟩
  rcases List.infix_cons_iff.1 hin with hfront | hrest
  · simp only [opening, List.cons_prefix_cons, true_and] at hfront
    exact hplain '{' (hfront.subset (by simp)) rfl
  · exact (isLiteral_of_no_brace hplain).1 hrest

theorem IsTemplate.append {x y : List Char} (hx : IsTemplate x) (hy : IsTemplate y) :
    IsTemplate (x ++ y) := by
  induction hx with
  | nil => exact hy
  | literal plain _ ih => rw [List.append_assoc]; exact .literal plain ih
  | placeholder named _ ih => rw [List.append_assoc]; exact .placeholder named ih

namespace Placeholder

theorem Occurs.mono {name x : List Char} (h : Occurs name x) (before after : List Char) :
    Occurs name (before ++ x ++ after) := by
  obtain ⟨hname, a, b, rfl⟩ := h
  exact ⟨hname, before ++ a, b ++ after, by simp⟩

theorem not_occurs_nil (name : List Char) : ¬ Occurs name [] := by
  rintro ⟨-, before, after, h⟩
  simp [write] at h

private theorem occurs_cons_iff {name text : List Char} {c : Char}
    (h : ¬ opening <+: c :: text) : Occurs name (c :: text) ↔ Occurs name text := by
  constructor
  · rintro ⟨hname, before, after, heq⟩
    cases before with
    | nil => exact absurd (heq ▸ opening_prefix_write name after) h
    | cons d before =>
      obtain ⟨-, rfl⟩ := List.cons.inj heq
      exact ⟨hname, before, after, rfl⟩
  · intro hrest
    simpa using hrest.mono [c] []

theorem occurs_literal_append {name text : List Char} (h : IsLiteral text) (rest : List Char) :
    Occurs name (text ++ rest) ↔ Occurs name rest := by
  induction text with
  | nil => rfl
  | cons c text ih => exact (occurs_cons_iff (h.not_opening_prefix rest)).trans (ih h.tail)

theorem occurs_write_append {name other : List Char} (h : IsName other) (rest : List Char) :
    Occurs name (write other ++ rest) ↔ name = other ∨ Occurs name rest := by
  constructor
  · rintro ⟨hname, before, after, heq⟩
    cases before with
    | nil => exact Or.inl (write_append_inj h hname heq).1.symm
    | cons d before =>
      obtain ⟨-, htail⟩ := List.cons.inj heq
      exact Or.inr ((occurs_literal_append (isLiteral_write_tail h) rest).1
        ⟨hname, before, after, htail⟩)
  · rintro (rfl | hrest)
    · exact ⟨h, [], rest, rfl⟩
    · simpa using hrest.mono (write other) []

/-- No placeholder arises across the seam behind a template. -/
theorem occurs_append {name x : List Char} (hx : IsTemplate x) (y : List Char) :
    Occurs name (x ++ y) ↔ Occurs name x ∨ Occurs name y := by
  induction hx with
  | nil => simp [not_occurs_nil]
  | literal plain _ ih => rw [List.append_assoc, occurs_literal_append plain, ih,
      occurs_literal_append plain]
  | placeholder named _ ih => rw [List.append_assoc, occurs_write_append named, ih,
      occurs_write_append named, or_assoc]

end Placeholder

/-- The pairs of opening braces of a text all open placeholders. -/
private def OpeningsNamed (text : List Char) : Prop :=
  ∀ rest ∈ text.tails, opening <+: rest → (nameAtFront? rest).isSome

private theorem OpeningsNamed.of_suffix {x y : List Char} (h : OpeningsNamed x) (hy : y <:+ x) :
    OpeningsNamed y := fun rest hrest =>
  h rest (List.mem_tails _ _ |>.2 ((List.mem_tails _ _ |>.1 hrest).trans hy))

private theorem OpeningsNamed.literal_append {text rest : List Char} (h : IsLiteral text)
    (hrest : OpeningsNamed rest) : OpeningsNamed (text ++ rest) := by
  induction text with
  | nil => exact hrest
  | cons c text ih =>
    intro behind hbehind hopen
    rw [List.cons_append, List.tails_cons, List.mem_cons] at hbehind
    rcases hbehind with rfl | hbehind
    · exact absurd hopen (h.not_opening_prefix rest)
    · exact ih h.tail behind hbehind hopen

private theorem IsTemplate.openingsNamed {text : List Char} (h : IsTemplate text) :
    OpeningsNamed text := by
  induction h with
  | nil => intro rest hrest; simp_all [opening]
  | literal plain _ ih => exact ih.literal_append plain
  | @placeholder name rest named _ ih =>
    intro behind hbehind hopen
    have hwrite : write name ++ rest = '{' :: ('{' :: name ++ ['}', '}'] ++ rest) := rfl
    rw [hwrite, List.tails_cons, List.mem_cons] at hbehind
    rcases hbehind with rfl | hbehind
    · exact Option.isSome_iff_exists.2 ⟨name, nameAtFront?_eq_some_iff.2 ⟨named, rest, rfl⟩⟩
    · exact ih.literal_append (isLiteral_write_tail named) behind hbehind hopen

private theorem IsTemplate.getLast?_ne {text : List Char} (h : IsTemplate text) :
    text.getLast? ≠ some '{' := by
  induction h with
  | nil => simp
  | literal plain _ ih =>
    rw [List.getLast?_append, ne_eq, Option.or_eq_some_iff]
    rintro (hlast | ⟨-, hlast⟩)
    · exact ih hlast
    · exact plain.2 hlast
  | placeholder named _ ih =>
    rw [List.getLast?_append, ne_eq, Option.or_eq_some_iff]
    rintro (hlast | ⟨-, hlast⟩)
    · exact ih hlast
    · simp [write, List.getLast?_cons] at hlast

private theorem isTemplate_of_openingsNamed {text : List Char} (h : OpeningsNamed text)
    (hlast : text.getLast? ≠ some '{') : IsTemplate text := by
  induction hn : text.length using Nat.strongRecOn generalizing text with
  | ind n ih =>
    -- what is behind a piece at the front is shorter and has both properties again
    have hbehind : ∀ piece rest, piece ≠ [] → text = piece ++ rest → IsTemplate rest := by
      rintro piece rest hpiece rfl
      have hpos := List.length_pos_iff.2 hpiece
      rw [List.length_append] at hn
      refine ih rest.length (by omega) (h.of_suffix (List.suffix_append _ _)) (fun hr => ?_) rfl
      rw [List.getLast?_append, hr] at hlast
      exact hlast rfl
    by_cases hopen : opening <+: text
    · obtain ⟨name, hname⟩ := Option.isSome_iff_exists.1 (h text (by simp) hopen)
      obtain ⟨named, rest, heq⟩ := nameAtFront?_eq_some_iff.1 hname
      rw [heq]
      exact .placeholder named (hbehind _ rest (by simp [write]) heq)
    · match text, hopen, hlast, hbehind with
      | [], _, _, _ => exact .nil
      | [c], _, hlast, _ =>
        have hc : IsLiteral [c] := isLiteral_of_no_brace (by simpa using hlast)
        exact .literal hc .nil
      | c :: d :: rest, hopen, _, hbehind =>
        by_cases hc : c = '{'
        · have hd : d ≠ '{' := fun hd => hopen ⟨rest, by simp [opening, hc, hd]⟩
          have hpair : IsLiteral [c, d] := by
            constructor
            · intro hin
              have := hin.eq_of_length (by simp [opening])
              simp_all [opening]
            · simpa using hd
          exact .literal hpair (hbehind [c, d] rest (by simp) rfl)
        · have hsingle : IsLiteral [c] := isLiteral_of_no_brace (by simpa using hc)
          exact .literal hsingle (hbehind [c] (d :: rest) (by simp) rfl)

/-- A text is a template when each pair of opening braces opens a placeholder and the text does not
end in an opening brace. -/
theorem isTemplate_iff {text : List Char} :
    IsTemplate text ↔ (∀ rest ∈ text.tails, opening <+: rest → (nameAtFront? rest).isSome) ∧
      text.getLast? ≠ some '{' :=
  ⟨fun h => ⟨h.openingsNamed, h.getLast?_ne⟩, fun h => isTemplate_of_openingsNamed h.1 h.2⟩

instance (text : List Char) : Decidable (IsTemplate text) := decidable_of_iff' _ isTemplate_iff

end HighlightGrammar

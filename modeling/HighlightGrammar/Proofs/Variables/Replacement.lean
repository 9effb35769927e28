import HighlightGrammar.Grammar.VariableResolver
import HighlightGrammar.Proofs.Variables.Template

/-!
# One pass over a template

A variable finds the placeholders of its name in any text. On a template these are placeholders of
the template, so a pass keeps the literals and the other placeholders and puts the text of the
variable in place of its own. -/
namespace HighlightGrammar

open Placeholder

theorem sameName_nil_iff {found : List Char} : SameName [] found ↔ found = [] := by
  simp [SameName, eq_comm]

theorem sameName_cons_iff {n : Char} {name found : List Char} :
    SameName (n :: name) found ↔
      ∃ c rest, found = c :: rest ∧ Text.sameFold n c = true ∧ SameName name rest := by
  cases found with
  | nil => simp [SameName]
  | cons c rest => simp [SameName, Text.sameFold_iff]

theorem afterName?_eq_some_iff {name text rest : List Char} :
    afterName? name text = some rest ↔ ∃ found, text = found ++ rest ∧ SameName name found := by
  induction name generalizing text with
  | nil => simp [afterName?, sameName_nil_iff]
  | cons n name ih =>
    simp only [sameName_cons_iff]
    cases text with
    | nil => simp [afterName?]
    | cons c text =>
      rw [afterName?]
      by_cases hc : Text.sameFold n c = true
      · rw [if_pos hc, ih]
        constructor
        · rintro ⟨found, rfl, h⟩
          exact ⟨c :: found, rfl, c, found, rfl, hc, h⟩
        · rintro ⟨_, heq, d, found, rfl, -, h⟩
          obtain ⟨rfl, rfl⟩ := List.cons.inj heq
          exact ⟨found, rfl, h⟩
      · rw [if_neg hc]
        simp only [reduceCtorEq, false_iff]
        rintro ⟨_, heq, d, found, rfl, hd, -⟩
        obtain ⟨rfl, -⟩ := List.cons.inj heq
        exact hc hd

/-- A variable is found exactly where a placeholder of its name starts. -/
theorem startsWithPlaceholder_iff {name text : List Char} (hname : IsName name) :
    startsWithPlaceholder name text = true ↔
      ∃ found rest, text = write found ++ rest ∧ IsName found ∧ SameName name found := by
  constructor
  · intro h
    unfold startsWithPlaceholder at h
    split at h
    · next rest =>
      split at h
      · next after hafter =>
        obtain ⟨found, rfl, hsame⟩ := afterName?_eq_some_iff.1 hafter
        exact ⟨found, after, by simp [write], hsame.isName hname, hsame⟩
      · cases h
    · cases h
  · rintro ⟨found, rest, rfl, -, hsame⟩
    have hafter : afterName? name (found ++ '}' :: '}' :: rest) = some ('}' :: '}' :: rest) :=
      afterName?_eq_some_iff.2 ⟨found, rfl, hsame⟩
    simp [write, startsWithPlaceholder, hafter]

theorem not_startsWithPlaceholder {name text : List Char} (hname : IsName name)
    (h : ¬ opening <+: text) : ¬ startsWithPlaceholder name text = true := by
  rw [startsWithPlaceholder_iff hname]
  rintro ⟨found, rest, rfl, -⟩
  exact h (opening_prefix_write found rest)

namespace Replacer

variable {replacer : Replacer}

theorem replaceFrom_length_append (taken rest : List Char) :
    replacer.replaceFrom taken.length (taken ++ rest) = replacer.replaceFrom 0 rest := by
  induction taken with
  | nil => rfl
  | cons c taken ih => exact ih

theorem replace_cons {c : Char} {text : List Char}
    (h : ¬ startsWithPlaceholder replacer.name (c :: text) = true) :
    replacer.replace (c :: text) = c :: replacer.replace text := by
  rw [replace, replaceFrom, if_neg h, replace]

theorem replace_literal_append (hname : IsName replacer.name) {text : List Char}
    (h : IsLiteral text) (rest : List Char) :
    replacer.replace (text ++ rest) = text ++ replacer.replace rest := by
  induction text with
  | nil => rfl
  | cons c text ih =>
    have hstart := not_startsWithPlaceholder hname (h.not_opening_prefix rest)
    exact (replace_cons hstart).trans (congrArg (List.cons c) (ih h.tail))

theorem replace_own_append (hname : IsName replacer.name) {name : List Char}
    (hsame : SameName replacer.name name) (rest : List Char) :
    replacer.replace (write name ++ rest) = replacer.replacement ++ replacer.replace rest := by
  have hstart : startsWithPlaceholder replacer.name (write name ++ rest) = true :=
    (startsWithPlaceholder_iff hname).2 ⟨name, rest, rfl, hsame.isName hname, hsame⟩
  have hlength : replacer.name.length + 3 = ('{' :: name ++ ['}', '}']).length := by
    simp [hsame.length_eq]
  calc replacer.replace (write name ++ rest)
      = replacer.replacement ++
          replacer.replaceFrom (replacer.name.length + 3) ('{' :: name ++ ['}', '}'] ++ rest) := by
        rw [replace]
        exact (replaceFrom.eq_3 ..).trans (if_pos hstart)
    _ = replacer.replacement ++ replacer.replace rest := by
        rw [hlength, replaceFrom_length_append, replace]

theorem replace_other_append (hname : IsName replacer.name) {name : List Char} (h : IsName name)
    (hother : ¬ SameName replacer.name name) (rest : List Char) :
    replacer.replace (write name ++ rest) = write name ++ replacer.replace rest := by
  have hstart : ¬ startsWithPlaceholder replacer.name (write name ++ rest) = true := by
    rw [startsWithPlaceholder_iff hname]
    rintro ⟨found, after, heq, hfound, hsame⟩
    exact hother ((write_append_inj h hfound heq).1 ▸ hsame)
  have htail := replace_literal_append hname (isLiteral_write_tail h) rest
  calc replacer.replace (write name ++ rest)
      = '{' :: replacer.replace ('{' :: name ++ ['}', '}'] ++ rest) := replace_cons hstart
    _ = write name ++ replacer.replace rest := by rw [htail]; rfl

/-- A pass works piece by piece. -/
theorem replace_append (hname : IsName replacer.name) {x : List Char} (hx : IsTemplate x)
    (y : List Char) : replacer.replace (x ++ y) = replacer.replace x ++ replacer.replace y := by
  induction hx with
  | nil => rfl
  | literal plain _ ih =>
    rw [List.append_assoc, replace_literal_append hname plain, ih,
      replace_literal_append hname plain, List.append_assoc]
  | @placeholder name rest named _ ih =>
    rw [List.append_assoc]
    by_cases hsame : SameName replacer.name name
    · rw [replace_own_append hname hsame, ih, replace_own_append hname hsame, List.append_assoc]
    · rw [replace_other_append hname named hsame, ih, replace_other_append hname named hsame,
        List.append_assoc]

/-- A pass of a variable whose text is a template leaves a template. -/
theorem isTemplate_replace (hname : IsName replacer.name)
    (hreplacement : IsTemplate replacer.replacement) {x : List Char} (hx : IsTemplate x) :
    IsTemplate (replacer.replace x) := by
  induction hx with
  | nil => exact .nil
  | literal plain _ ih => rw [replace_literal_append hname plain]; exact .literal plain ih
  | @placeholder name rest named _ ih =>
    by_cases hsame : SameName replacer.name name
    · rw [replace_own_append hname hsame]
      exact hreplacement.append ih
    · rw [replace_other_append hname named hsame]
      exact .placeholder named ih

/-- A pass keeps the placeholders of other names, and brings those of its text if it finds its own
name. -/
theorem occurs_replace_iff (hname : IsName replacer.name)
    (hreplacement : IsTemplate replacer.replacement) {x name : List Char} (hx : IsTemplate x) :
    Occurs name (replacer.replace x) ↔
      (Occurs name x ∧ ¬ SameName replacer.name name) ∨
        ((∃ own, Occurs own x ∧ SameName replacer.name own) ∧
          Occurs name replacer.replacement) := by
  induction hx with
  | nil => simp [replace, replaceFrom, not_occurs_nil]
  | literal plain _ ih =>
    simp only [replace_literal_append hname plain, occurs_literal_append plain, ih]
  | @placeholder other rest named _ ih =>
    by_cases hsame : SameName replacer.name other
    · rw [replace_own_append hname hsame, occurs_append hreplacement, ih,
        occurs_write_append named]
      constructor
      · rintro (hnew | ⟨hold, hne⟩ | ⟨-, hnew⟩)
        · exact Or.inr ⟨⟨other, (occurs_write_append named rest).2 (Or.inl rfl), hsame⟩, hnew⟩
        · exact Or.inl ⟨Or.inr hold, hne⟩
        · exact Or.inr ⟨⟨other, (occurs_write_append named rest).2 (Or.inl rfl), hsame⟩, hnew⟩
      · rintro (⟨rfl | hold, hne⟩ | ⟨-, hnew⟩)
        · exact absurd hsame hne
        · exact Or.inr (Or.inl ⟨hold, hne⟩)
        · exact Or.inl hnew
    · rw [replace_other_append hname named hsame, occurs_write_append named, ih,
        occurs_write_append named]
      constructor
      · rintro (rfl | ⟨hold, hne⟩ | ⟨⟨own, hown, ho⟩, hnew⟩)
        · exact Or.inl ⟨Or.inl rfl, hsame⟩
        · exact Or.inl ⟨Or.inr hold, hne⟩
        · exact Or.inr ⟨⟨own, (occurs_write_append named rest).2 (Or.inr hown), ho⟩, hnew⟩
      · rintro (⟨rfl | hold, hne⟩ | ⟨⟨own, hown, ho⟩, hnew⟩)
        · exact Or.inl rfl
        · exact Or.inr (Or.inl ⟨hold, hne⟩)
        · rcases (occurs_write_append named rest).1 hown with rfl | hown
          · exact absurd ho hsame
          · exact Or.inr (Or.inr ⟨⟨own, hown, ho⟩, hnew⟩)

/-- A pass changes nothing in a text without placeholders of its name. -/
theorem replace_eq_self (hname : IsName replacer.name) {text : List Char}
    (h : ∀ name, Occurs name text → ¬ SameName replacer.name name) :
    replacer.replace text = text := by
  induction text with
  | nil => rfl
  | cons c text ih =>
    have hstart : ¬ startsWithPlaceholder replacer.name (c :: text) = true := by
      rw [startsWithPlaceholder_iff hname]
      rintro ⟨found, rest, heq, hfound, hsame⟩
      exact h found ⟨hfound, [], rest, heq⟩ hsame
    rw [replace_cons hstart, ih]
    intro name hname'
    exact h name (by simpa using hname'.mono [c] [])

theorem length_replaceFrom_le (hempty : replacer.replacement = []) (skip : Nat) (text : List Char) :
    (replacer.replaceFrom skip text).length ≤ text.length := by
  induction text generalizing skip with
  | nil => cases skip <;> simp [replaceFrom]
  | cons c text ih =>
    cases skip with
    | zero =>
      have hskipped := ih (replacer.name.length + 3)
      have hkept := ih 0
      rw [replaceFrom, hempty]
      split
      · simp only [List.nil_append, List.length_cons]
        omega
      · simp only [List.length_cons]
        omega
    | succ skip =>
      have hrest := ih skip
      simp only [replaceFrom, List.length_cons]
      omega

/-- A pass of a variable with an empty text takes characters away wherever it finds its name. -/
theorem length_replace_lt (hname : IsName replacer.name) (hempty : replacer.replacement = [])
    {own text : List Char} (hown : Occurs own text) (hsame : SameName replacer.name own) :
    (replacer.replace text).length < text.length := by
  induction text with
  | nil => exact absurd hown (not_occurs_nil own)
  | cons c text ih =>
    by_cases hstart : startsWithPlaceholder replacer.name (c :: text) = true
    · have hle := length_replaceFrom_le hempty (replacer.name.length + 3) text
      rw [replace, replaceFrom, if_pos hstart, hempty, List.nil_append, List.length_cons]
      omega
    · obtain ⟨named, before, after, heq⟩ := hown
      cases before with
      | nil =>
        exact absurd ((startsWithPlaceholder_iff hname).2 ⟨own, after, heq, named, hsame⟩) hstart
      | cons d before =>
        obtain ⟨-, rfl⟩ := List.cons.inj heq
        have hrest := ih ⟨named, before, after, rfl⟩
        rw [replace_cons hstart, List.length_cons, List.length_cons]
        omega

end Replacer

end HighlightGrammar

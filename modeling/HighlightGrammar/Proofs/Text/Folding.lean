import HighlightGrammar.Text.Folding

/-!
# Folding to ASCII

Only two characters beyond ASCII fold to one of it: the long s and the Kelvin sign, which fold to s
and to k. For a character of ASCII that is neither, folding is the lower-casing of ASCII. -/
namespace HighlightGrammar.Text

theorem isUpper_iff {c : Char} : c.isUpper = true ↔ 65 ≤ c.toNat ∧ c.toNat ≤ 90 :=
  decide_eq_true_iff.trans (and_congr UInt32.le_iff_toNat_le UInt32.le_iff_toNat_le)

theorem isLower_iff {c : Char} : c.isLower = true ↔ 97 ≤ c.toNat ∧ c.toNat ≤ 122 :=
  Bool.and_eq_true_iff.trans <| and_congr (decide_eq_true_iff.trans UInt32.le_iff_toNat_le)
    (decide_eq_true_iff.trans UInt32.le_iff_toNat_le)

/-- Lower-casing moves the upper-case letters of ASCII and keeps all else. -/
theorem toLower_cases (c : Char) :
    c.toLower = c ∧ c.isUpper = false ∨ c.isUpper = true ∧ c.toLower.toNat = c.toNat + 32 := by
  unfold Char.toLower
  split
  · next h =>
    have hupper : c.isUpper = true := decide_eq_true h
    have hbounds := isUpper_iff.1 hupper
    have hshift : ('a'.val - 'A'.val).toNat = 32 := rfl
    refine Or.inr ⟨hupper, ?_⟩
    change (c.val + ('a'.val - 'A'.val)).toNat = c.toNat + 32
    rw [UInt32.toNat_add, hshift, Char.toNat_val]
    omega
  · next h => exact Or.inl ⟨rfl, decide_eq_false h⟩

theorem toLower_beyond {c : Char} (hc : 0x80 ≤ c.toNat) : c.toLower = c := by
  rcases toLower_cases c with ⟨hsame, -⟩ | ⟨hupper, -⟩
  · exact hsame
  · have hbounds := isUpper_iff.1 hupper
    omega

/-- Where a run leads, there are characters, and they are beyond ASCII. -/
def FoldRun.LeadsBeyond (run : FoldRun) : Prop :=
  0x80 ≤ run.first + run.shift ∧
    (run.last + run.shift < 0xD800 ∨
      0xDFFF < run.first + run.shift ∧ run.last + run.shift < 0x110000)

instance (run : FoldRun) : Decidable run.LeadsBeyond := inferInstanceAs (Decidable (_ ∧ (_ ∨ _)))

/-- The long s and the Kelvin sign have runs of their own. -/
private theorem leadsBeyond_of_mem : ∀ run ∈ foldRuns, run.LeadsBeyond ∨ run.first = run.last ∧
    (run.target run.first = 's'.toNat ∨ run.target run.first = 'k'.toNat) := by
  decide +kernel

theorem FoldRun.LeadsBeyond.le_toNat {run : FoldRun} (h : run.LeadsBeyond) {code : Nat}
    (hcovers : run.covers code = true) : 0x80 ≤ (Char.ofNat (run.target code)).toNat := by
  simp only [covers, Bool.and_eq_true, decide_eq_true_eq] at hcovers
  unfold LeadsBeyond at h
  have hvalid : (run.target code).isValidChar := by
    unfold target Nat.isValidChar
    omega
  have htarget : (Char.ofNat (run.target code)).toNat = run.target code := by
    rw [Char.ofNat, dif_pos hvalid]
    rfl
  rw [htarget, target]
  omega

/-- What is beyond ASCII stays there, the long s and the Kelvin sign apart. -/
theorem fold_beyond {c : Char} (hc : 0x80 ≤ c.toNat) :
    0x80 ≤ (fold c).toNat ∨ fold c = 's' ∨ fold c = 'k' := by
  rw [fold, if_neg (Nat.not_lt.2 hc)]
  split
  · next run hrun =>
    have hcovers := List.find?_some hrun
    rcases leadsBeyond_of_mem run (List.mem_of_find?_eq_some hrun) with hbeyond | ⟨hsingle, hletter⟩
    · exact Or.inl (hbeyond.le_toNat hcovers)
    · have hcode : c.toNat = run.first := by
        simp only [FoldRun.covers, Bool.and_eq_true, decide_eq_true_eq] at hcovers
        omega
      rw [hcode]
      exact Or.inr (hletter.imp (fun h => by rw [h]; rfl) fun h => by rw [h]; rfl)
  · exact Or.inl hc

/-- For the characters of ASCII but s and k, folding is lower-casing. -/
theorem fold_eq_iff_toLower_eq {c d : Char} (hascii : d.toNat < 0x80) (hs : d ≠ 's')
    (hk : d ≠ 'k') : fold c = d ↔ c.toLower = d := by
  by_cases hc : c.toNat < 0x80
  -- In ASCII folding is lower-casing; beyond it neither leads to the character.
  · rw [fold, if_pos hc]
  · have hbeyond := Nat.not_lt.1 hc
    rw [toLower_beyond hbeyond]
    constructor
    · rintro rfl
      rcases fold_beyond hbeyond with hfold | hfold | hfold
      · exact absurd hascii (Nat.not_lt.2 hfold)
      · exact absurd hfold hs
      · exact absurd hfold hk
    · rintro rfl
      exact absurd hascii hc

/-- A character of ASCII that is no letter is folded to by itself alone. -/
theorem fold_eq_iff_of_not_isAlpha {c d : Char} (hascii : d.toNat < 0x80)
    (hletter : d.isAlpha = false) : fold c = d ↔ c = d := by
  obtain ⟨hupper, hlower⟩ : d.isUpper = false ∧ d.isLower = false := Bool.or_eq_false_iff.1 hletter
  have hs : d ≠ 's' := by
    rintro rfl
    cases hlower
  have hk : d ≠ 'k' := by
    rintro rfl
    cases hlower
  rw [fold_eq_iff_toLower_eq hascii hs hk]
  rcases toLower_cases c with ⟨hsame, -⟩ | ⟨hcUpper, hmoved⟩
  · rw [hsame]
  · constructor
    · rintro rfl
      have hbounds := isUpper_iff.1 hcUpper
      rw [Bool.eq_false_iff, ne_eq, isLower_iff, hmoved] at hlower
      omega
    · rintro rfl
      rw [hcUpper] at hupper
      cases hupper

/-- The text is in ASCII, and no character beyond ASCII folds to one of its characters. -/
def FoldedFromAscii (text : List Char) : Prop := ∀ c ∈ text, c.toNat < 0x80 ∧ c ≠ 's' ∧ c ≠ 'k'

instance (text : List Char) : Decidable (FoldedFromAscii text) :=
  List.decidableBAll (fun c : Char => c.toNat < 0x80 ∧ c ≠ 's' ∧ c ≠ 'k') text

theorem FoldedFromAscii.map_fold_eq_iff {plain : List Char} (hplain : FoldedFromAscii plain)
    {text : List Char} : text.map fold = plain ↔ text.map Char.toLower = plain := by
  induction text generalizing plain with
  | nil => rfl
  | cons c text ih =>
    cases plain with
    | nil => simp
    | cons d plain =>
      obtain ⟨⟨hascii, hs, hk⟩, hrest⟩ := List.forall_mem_cons.1 hplain
      rw [List.map_cons, List.map_cons, List.cons.injEq, List.cons.injEq,
        fold_eq_iff_toLower_eq hascii hs hk, ih hrest]

end HighlightGrammar.Text

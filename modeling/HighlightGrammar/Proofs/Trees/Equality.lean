import HighlightGrammar.Tree

/-!
# Equality of trees

Whether two trees are one and the same, the order of their entries included, can be computed. -/
namespace HighlightGrammar.Tree

mutual

/-- Whether two trees are equal, entry by entry. -/
def identical : Tree → Tree → Bool
  | null, null => true
  | bool a, bool b => a == b
  | number a, number b => decide (a = b)
  | string a, string b => a == b
  | sequence as, sequence bs => identicalItems as bs
  | mapping as, mapping bs => identicalEntries as bs
  | tagged s a, tagged t b => s == t && identical a b
  | _, _ => false
termination_by structural tree => tree

def identicalItems : List Tree → List Tree → Bool
  | [], [] => true
  | a :: as, b :: bs => identical a b && identicalItems as bs
  | _, _ => false
termination_by structural items => items

def identicalEntries : List (Tree × Tree) → List (Tree × Tree) → Bool
  | [], [] => true
  | (key, a) :: as, (other, b) :: bs =>
    identical key other && identical a b && identicalEntries as bs
  | _, _ => false
termination_by structural entries => entries

end

mutual

theorem eq_of_identical (a b : Tree) (h : identical a b = true) : a = b := by
  match a, b with
  | null, null => rfl
  | bool a, bool b => rw [eq_of_beq h]
  | number a, number b => rw [of_decide_eq_true h]
  | string a, string b => rw [eq_of_beq h]
  | sequence as, sequence bs => rw [eq_of_identicalItems as bs h]
  | mapping as, mapping bs => rw [eq_of_identicalEntries as bs h]
  | tagged s a, tagged t b =>
    obtain ⟨htag, hcontent⟩ := (Bool.and_eq_true _ _).mp h
    rw [eq_of_beq htag, eq_of_identical a b hcontent]

theorem eq_of_identicalItems (as bs : List Tree) (h : identicalItems as bs = true) : as = bs := by
  match as, bs with
  | [], [] => rfl
  | a :: as, b :: bs =>
    obtain ⟨hitem, hitems⟩ := (Bool.and_eq_true _ _).mp h
    rw [eq_of_identical a b hitem, eq_of_identicalItems as bs hitems]

theorem eq_of_identicalEntries (as bs : Entries) (h : identicalEntries as bs = true) :
    as = bs := by
  match as, bs with
  | [], [] => rfl
  | (key, a) :: as, (other, b) :: bs =>
    obtain ⟨hentry, hentries⟩ := (Bool.and_eq_true _ _).mp h
    obtain ⟨hkey, hvalue⟩ := (Bool.and_eq_true _ _).mp hentry
    rw [eq_of_identical key other hkey, eq_of_identical a b hvalue,
      eq_of_identicalEntries as bs hentries]

end

mutual

theorem identical_refl (tree : Tree) : identical tree tree = true := by
  match tree with
  | null => rfl
  | bool a => exact beq_self_eq_true a
  | number a => exact decide_eq_true rfl
  | string a => exact beq_self_eq_true a
  | sequence as => exact identicalItems_refl as
  | mapping as => exact identicalEntries_refl as
  | tagged s a => rw [identical, beq_self_eq_true, identical_refl a]; rfl

theorem identicalItems_refl (items : List Tree) : identicalItems items items = true := by
  match items with
  | [] => rfl
  | item :: items => rw [identicalItems, identical_refl item, identicalItems_refl items]; rfl

theorem identicalEntries_refl (entries : Entries) : identicalEntries entries entries = true := by
  match entries with
  | [] => rfl
  | (key, value) :: entries =>
    rw [identicalEntries, identical_refl key, identical_refl value,
      identicalEntries_refl entries]
    rfl

end

theorem identical_iff {a b : Tree} : identical a b = true ↔ a = b := by
  constructor
  · exact eq_of_identical a b
  · rintro rfl
    exact identical_refl a

instance : DecidableEq Tree := fun _ _ => decidable_of_iff _ identical_iff

end HighlightGrammar.Tree

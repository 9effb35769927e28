import Mathlib.Data.List.Lex
import Mathlib.Tactic.SplitIfs

/-!
# The order of encoded texts

Texts are ordered by their code points. Their encodings have the same order byte by byte: a longer
encoding of a character starts with a greater byte, and encodings of one length write the code point
from its highest digits on. -/
namespace HighlightGrammar.Text

/-- The bytes that encode a text. -/
def bytes (text : String) : List UInt8 := text.toUTF8.data.toList

theorem bytes_eq_flatMap (text : String) :
    bytes text = text.toList.flatMap String.utf8EncodeChar := by
  rw [bytes, String.toUTF8_eq_toByteArray, ← String.utf8Encode_toList, List.utf8Encode,
    List.data_toByteArray]

theorem ofNat_cons_lt_iff {a b : Nat} (ha : a < 256) (hb : b < 256) {xs ys : List UInt8} :
    UInt8.ofNat a :: xs < UInt8.ofNat b :: ys ↔ a < b ∨ a = b ∧ xs < ys := by
  rw [List.cons_lt_cons_iff, UInt8.ofNat_lt_iff_lt ha hb, ← UInt8.toNat_inj, UInt8.toNat_ofNat',
    UInt8.toNat_ofNat', Nat.mod_eq_of_lt ha, Nat.mod_eq_of_lt hb]

/-- The encodings of two characters differ before one of them ends. -/
theorem encode_append_lt {c d : Char} (h : c < d) (xs ys : List UInt8) :
    String.utf8EncodeChar c ++ xs < String.utf8EncodeChar d ++ ys := by
  have hval : c.val.toNat < d.val.toNat := h
  have hbound : d.val.toNat < 0x110000 := d.valid.elim (fun hd => by omega) fun hd => hd.2
  generalize hc : c.val.toNat = v at hval
  generalize hd : d.val.toNat = w at hval hbound
  -- The digits to the base 64 come from one another.
  have hsecond : ∀ n : Nat, n / 4096 = n / 64 / 64 := fun n => (Nat.div_div_eq_div_mul n 64 64).symm
  have hthird : ∀ n : Nat, n / 262144 = n / 64 / 64 / 64 := fun n => by
    rw [Nat.div_div_eq_div_mul, Nat.div_div_eq_div_mul]
  unfold String.utf8EncodeChar
  rw [hc, hd]
  dsimp only
  split_ifs
  all_goals
    simp (disch := omega) only [List.cons_append, List.nil_append, ofNat_cons_lt_iff, hsecond,
      hthird]
    omega

theorem bytes_lt_of_lt {text other : String} (h : text < other) : bytes text < bytes other := by
  rw [bytes_eq_flatMap, bytes_eq_flatMap]
  have hlists : text.toList < other.toList := h
  generalize text.toList = cs at hlists
  generalize other.toList = ds at hlists
  induction hlists with
  | nil =>
    rename_i d ds
    rw [List.flatMap_nil, List.flatMap_cons]
    cases hd : String.utf8EncodeChar d with
    | nil => exact absurd hd String.utf8EncodeChar_ne_nil
    | cons => exact List.nil_lt_cons _ _
  | cons _ ih =>
    rw [List.flatMap_cons, List.flatMap_cons]
    exact List.append_left_lt ih
  | rel hlt =>
    rw [List.flatMap_cons, List.flatMap_cons]
    exact encode_append_lt hlt _ _

end HighlightGrammar.Text

/-! # White space

Properties of characters are given as lists of closed ranges of their numbers. The property
White_Space has twenty-five characters in ten ranges. -/
namespace HighlightGrammar.Text

/-- Membership in a list of closed ranges of code points. -/
def inRanges (ranges : List (Nat × Nat)) (code : Nat) : Bool :=
  ranges.any fun r => r.1 ≤ code && code ≤ r.2

/-- The characters with the property White_Space. -/
def blanks : List (Nat × Nat) :=
  [(0x09, 0x0D), (0x20, 0x20), (0x85, 0x85), (0xA0, 0xA0), (0x1680, 0x1680), (0x2000, 0x200A),
   (0x2028, 0x2029), (0x202F, 0x202F), (0x205F, 0x205F), (0x3000, 0x3000)]

/-- Whether a character has the property White_Space. -/
def isBlank (c : Char) : Bool := inRanges blanks c.toNat

theorem isBlank_of_isWhitespace {c : Char} (h : c.isWhitespace = true) : isBlank c = true := by
  simp [Char.isWhitespace] at h
  rcases h with ((h | h) | h) | h <;> subst h <;> decide

/-- The text without the white space at its end. -/
def trimEnd (text : String) : String :=
  String.ofList (text.toList.reverse.dropWhile isBlank).reverse

end HighlightGrammar.Text

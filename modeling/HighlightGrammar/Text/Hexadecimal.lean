/-! # Hexadecimal digits -/
namespace HighlightGrammar.Text

/-- The value of a hexadecimal digit. -/
def hexValue? (c : Char) : Option Nat :=
  if '0' ≤ c ∧ c ≤ '9' then some (c.toNat - 48)
  else if 'a' ≤ c ∧ c ≤ 'f' then some (c.toNat - 87)
  else if 'A' ≤ c ∧ c ≤ 'F' then some (c.toNat - 55)
  else none

/-- The number written by digits of a base up to sixteen; there has to be one. -/
def digitsValue? (base : Nat) (digits : List Char) : Option Nat :=
  if digits.isEmpty then none
  else digits.foldl (fun value? c => do
    let value ← value?
    let digit ← hexValue? c
    if digit < base then some (value * base + digit) else none) (some 0)

/-- The character whose number is written by the first `width` characters of a text. -/
def hexChar? (width : Nat) (text : List Char) : Option Char :=
  let digits := text.take width
  if digits.length < width then none
  else (digitsValue? 16 digits).bind fun code =>
    if code.isValidChar then some (Char.ofNat code) else none

/-- The capital hexadecimal digit of a value below sixteen. -/
def hexDigit (n : Nat) : Char := if n < 10 then Char.ofNat (48 + n) else Char.ofNat (55 + n)

/-- The last `width` hexadecimal digits of a number. -/
def hexDigits : Nat → Nat → List Char
  | 0, _ => []
  | width + 1, n => hexDigits width (n / 16) ++ [hexDigit (n % 16)]

end HighlightGrammar.Text

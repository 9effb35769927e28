import HighlightGrammar.Decimal.Binary64

/-! # TOML values -/
namespace HighlightGrammar.Toml

open Decimal

/-- A value of a TOML document. Dates and times are held as text. -/
inductive Value where
  | string (text : String)
  | integer (value : Int)
  | float (value : Binary64)
  | boolean (value : Bool)
  | moment (text : String)
  | array (items : List Value)
  | table (entries : List (String × Value))
deriving Inhabited

end HighlightGrammar.Toml

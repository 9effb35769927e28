import HighlightGrammar.Grammar.Grammar
import HighlightGrammar.Scan.Token

/-! # Tokenizers

How a line is cut into tokens is not a matter of this library: a tokenizer is compiled from a
grammar by a backend that the caller brings. What a line leaves open, such as a comment, is its
state, handed to the next line. -/
namespace HighlightGrammar

/-- Cuts lines into tokens, with states of type `σ` between them. -/
structure Tokenizer (σ : Type) where
  start : σ
  /-- The tokens of a line and the state behind it. -/
  tokens : σ → String → Except ScanError (List Token × σ)

/-- Compiles grammars to tokenizers. -/
structure ScannerBackend (σ : Type) where
  compile : Kind → Grammar → Except ScanError (Tokenizer σ)

/-- A grammar with its tokenizer. -/
structure LoadedGrammar (σ : Type) where
  kind : Kind
  /-- The name of its file, as reports show it. -/
  fileName : String
  grammar : Grammar
  tokenizer : Tokenizer σ

end HighlightGrammar

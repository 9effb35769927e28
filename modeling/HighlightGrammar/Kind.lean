import HighlightGrammar.Path

/-! # The two kinds of grammar

Programs and screen forms have a grammar each. A grammar names its tokens with scopes, and a scope
belongs to a kind when it ends in that kind's suffix, letter case aside. -/
namespace HighlightGrammar

/-- Which of the two languages a grammar describes. -/
inductive Kind where
  | source
  | form
deriving DecidableEq, Repr, Inhabited

namespace Kind

/-- Both kinds, in the order in which they are always handled. -/
def all : List Kind := [source, form]

/-- The name of a kind, which is also the folder that its cases lie in. -/
def folder : Kind → String
  | source => "source"
  | form => "form"

instance : ToString Kind := ⟨folder⟩

/-- The scope of a whole document of this kind. -/
def scopeName : Kind → String
  | source => "source.4gl"
  | form => "source.per"

/-- How the scopes of this kind end, in capitals. -/
def scopeSuffix : Kind → String
  | source => ".4GL"
  | form => ".PER"

/-- The kind that a document of this kind is checked against. -/
def complement : Kind → Kind
  | source => form
  | form => source

/-- The position of a kind in `all`. -/
def index : Kind → Nat
  | source => 0
  | form => 1

/-- Forms are recognised by their extension, in lower case; everything else is a program. -/
def forFile (path : Path) : Kind :=
  if path.extension? = some "per" then form else source

/-- Whether a scope belongs to this kind. Only the ASCII letters have to be raised: no other
character has a capital among those of a suffix. -/
def ownsScope (kind : Kind) (scope : String) : Bool :=
  kind.scopeSuffix.toList.isSuffixOf (scope.toList.map Char.toUpper)

/-- The text that names no kind, in lower case. -/
structure UnknownKind where
  text : String
deriving DecidableEq, Repr

def UnknownKind.message (error : UnknownKind) : String :=
  s!"unknown grammar kind '{error.text}' (expected source or form)"

/-- Reads a kind from its name or its file extension; the case of ASCII letters does not matter. -/
def parse (text : String) : Except UnknownKind Kind :=
  let name := String.ofList (text.toList.map Char.toLower)
  if name = "source" ∨ name = "4gl" then .ok source
  else if name = "form" ∨ name = "per" then .ok form
  else .error ⟨name⟩

@[simp] theorem complement_complement (kind : Kind) : kind.complement.complement = kind := by
  cases kind <;> rfl

theorem complement_ne (kind : Kind) : kind.complement ≠ kind := by cases kind <;> decide

theorem mem_all (kind : Kind) : kind ∈ all := by cases kind <;> decide

theorem ownsScope_iff (kind : Kind) (scope : String) :
    kind.ownsScope scope = true ↔
      kind.scopeSuffix.toList <:+ scope.toList.map Char.toUpper := by
  simp [ownsScope]

end Kind

end HighlightGrammar

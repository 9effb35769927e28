/-! # Places in a document

A place is told by the keys and positions that lead to it from the root. -/
namespace HighlightGrammar

/-- A place in a document, from the root inwards. -/
structure RulePath where
  segments : List String
deriving DecidableEq, Repr, Inhabited

namespace RulePath

def root : RulePath := ⟨[]⟩

/-- The place below `path` under a key or a position. -/
def child (path : RulePath) (segment : String) : RulePath := ⟨path.segments ++ [segment]⟩

/-- The place below `path` at a position. -/
def item (path : RulePath) (index : Nat) : RulePath := path.child (toString index)

/-- The segments with slashes between them; the root has a name of its own. -/
def text (path : RulePath) : String :=
  if path.segments.isEmpty then "<root>" else "/".intercalate path.segments

instance : ToString RulePath := ⟨text⟩

@[simp] theorem segments_root : root.segments = [] := rfl

@[simp] theorem segments_child (path : RulePath) (segment : String) :
    (path.child segment).segments = path.segments ++ [segment] := rfl

theorem text_of_ne_root {path : RulePath} (h : path.segments ≠ []) :
    path.text = "/".intercalate path.segments := by
  rw [text, if_neg (by simpa using h)]

end RulePath

/-- A document whose parts do not have the shape of a grammar. -/
structure ShapeError where
  path : RulePath
  reason : String
deriving DecidableEq, Repr

def ShapeError.message (error : ShapeError) : String := s!"{error.path}: {error.reason}"

end HighlightGrammar

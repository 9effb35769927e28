/-! # The fields of a rule that hold patterns and captures -/
namespace HighlightGrammar

/-- The fields whose text is a pattern. -/
inductive PatternField where
  | matchPattern
  | beginPattern
  | endPattern
  | whilePattern
deriving DecidableEq, Repr, Inhabited

namespace PatternField

def key : PatternField → String
  | matchPattern => "match"
  | beginPattern => "begin"
  | endPattern => "end"
  | whilePattern => "while"

/-- All pattern fields, in the order in which leftover ones are kept. -/
def all : List PatternField := [matchPattern, beginPattern, endPattern, whilePattern]

theorem key_injective {a b : PatternField} (h : a.key = b.key) : a = b := by
  cases a <;> cases b <;> first | rfl | simp [key] at h

end PatternField

/-- The fields that give rules to the groups of a pattern. -/
inductive CaptureField where
  | captures
  | beginCaptures
  | endCaptures
  | whileCaptures
deriving DecidableEq, Repr, Inhabited

namespace CaptureField

def key : CaptureField → String
  | captures => "captures"
  | beginCaptures => "beginCaptures"
  | endCaptures => "endCaptures"
  | whileCaptures => "whileCaptures"

def all : List CaptureField := [captures, beginCaptures, endCaptures, whileCaptures]

theorem key_injective {a b : CaptureField} (h : a.key = b.key) : a = b := by
  cases a <;> cases b <;> first | rfl | simp [key] at h

end CaptureField

/-- What the key of an entry says about it. -/
inductive FieldRole where
  | pattern (field : PatternField)
  | includeTarget
  | patterns
  | repository
  | captures (field : CaptureField)
  | attribute
deriving DecidableEq, Repr

/-- The role of an entry of a rule, told by its key. -/
def FieldRole.of (name : String) : FieldRole :=
  match PatternField.all.find? (·.key == name) with
  | some field => .pattern field
  | none =>
    match CaptureField.all.find? (·.key == name) with
    | some field => .captures field
    | none =>
      if name = "include" then .includeTarget
      else if name = "patterns" then .patterns
      else if name = "repository" then .repository
      else .attribute

end HighlightGrammar

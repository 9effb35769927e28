/-! # Paths

A path is the text that names a file. Nothing is normalised: a path is shown as it was given, and
only the questions below look at its segments. Segments are separated by `/`; an empty segment and
a segment `.` add nothing to a path, except that a leading `.` counts as the folder one
stands in. -/
namespace HighlightGrammar

/-- A path, kept as it was written. -/
structure Path where
  text : String
deriving DecidableEq, Repr, Inhabited

namespace Path

/-- Cuts a text at every slash; there is always one segment more than there are slashes. -/
def splitSlash : List Char → List (List Char)
  | [] => [[]]
  | c :: rest =>
    if c = '/' then [] :: splitSlash rest
    else match splitSlash rest with
      | [] => [[c]]
      | segment :: segments => (c :: segment) :: segments

/-- The inverse of `splitSlash`. -/
def joinSlash : List (List Char) → List Char
  | [] => []
  | [segment] => segment
  | segment :: segments => segment ++ '/' :: joinSlash segments

/-- A segment that adds nothing to the path it stands in. -/
def idle (segment : List Char) : Bool := segment.isEmpty || segment == ['.']

/-- The segments of a text without the idle ones at its end. -/
def trimmed (text : List Char) : List (List Char) :=
  ((splitSlash text).reverse.dropWhile idle).reverse

/-- The part of a path in front of its segments: the root, the folder one stands in, or nothing. -/
def anchor : List Char → List Char
  | '/' :: _ => ['/']
  | ['.'] => ['.']
  | '.' :: '/' :: _ => ['.']
  | _ => []

/-- The segments behind the anchor, up to the last one that counts. -/
def segments (path : Path) : List (List Char) :=
  let chars := path.text.toList
  trimmed (chars.drop (anchor chars).length)

/-- Whether a path starts at the root. -/
def isAbsolute (path : Path) : Bool := path.text.toList.head? == some '/'

/-- The last segment of a path, unless that climbs to the folder above. -/
def fileName? (path : Path) : Option String :=
  match path.segments.getLast? with
  | some segment => if segment = ['.', '.'] then none else some (String.ofList segment)
  | none => none

/-- What stands before and after the last dot of a file name. -/
def splitLastDot (name : List Char) : Option (List Char × List Char) :=
  match name.reverse.span (· != '.') with
  | (_, []) => none
  | (after, _ :: before) => some (before.reverse, after.reverse)

/-- The file name without its extension. A dot in front of the name starts no extension. -/
def stem? (path : Path) : Option String :=
  path.fileName?.map fun name =>
    match splitLastDot name.toList with
    | some (c :: before, _) => String.ofList (c :: before)
    | _ => name

/-- What stands after the last dot of the file name, unless that dot is its first character. -/
def extension? (path : Path) : Option String :=
  path.fileName?.bind fun name =>
    match splitLastDot name.toList with
    | some (_ :: _, after) => some (String.ofList after)
    | _ => none

/-- The path without its last segment; the root and the empty path have none. -/
def parent? (path : Path) : Option Path :=
  let chars := path.text.toList
  let front := anchor chars
  match path.segments.reverse with
  | [] => if front = ['.'] then some ⟨""⟩ else none
  | _ :: rest =>
    some ⟨String.ofList (front ++ joinSlash (rest.dropWhile idle).reverse)⟩

/-- The path and the paths around it, at most `fuel` of these. -/
def ancestorsFrom : Nat → Path → List Path
  | 0, path => [path]
  | fuel + 1, path =>
    match path.parent? with
    | some parent => path :: ancestorsFrom fuel parent
    | none => [path]

/-- The path, the path without its last segment, and so on. -/
def ancestors (path : Path) : List Path := ancestorsFrom (path.text.length + 1) path

/-- The path `child` as seen from `folder`: an absolute child stands alone, and a slash is set
between the two unless the folder is empty or brings one. -/
def join (folder child : Path) : Path :=
  if child.isAbsolute then child
  else if folder.text.isEmpty || folder.text.toList.getLast? == some '/' then
    ⟨folder.text ++ child.text⟩
  else ⟨folder.text ++ "/" ++ child.text⟩

instance : ToString Path := ⟨Path.text⟩

theorem splitSlash_ne_nil (text : List Char) : splitSlash text ≠ [] := by
  cases text with
  | nil => simp [splitSlash]
  | cons c rest =>
    unfold splitSlash
    split
    · simp
    · split <;> simp

theorem joinSlash_splitSlash (text : List Char) : joinSlash (splitSlash text) = text := by
  induction text with
  | nil => rfl
  | cons c rest ih =>
    obtain ⟨s, ss, hs⟩ := List.exists_cons_of_ne_nil (splitSlash_ne_nil rest)
    rw [hs] at ih
    unfold splitSlash
    split
    · next h => simp [hs, joinSlash, ih, h]
    · rw [hs]
      cases ss <;> simp [joinSlash] at ih ⊢ <;> exact ih

theorem join_absolute (folder child : Path) (h : child.isAbsolute = true) :
    folder.join child = child := by simp [join, h]

end Path

end HighlightGrammar

import HighlightGrammar.Proofs.Fallible
import HighlightGrammar.Storage.FileSystem

/-!
# Where paths lead

Each segment of a path is a step from one place to the next. Whether the steps can be taken depends
on the files, but not where they lead; so two file systems that agree on the places along the way
give the same answers about a path. -/
namespace HighlightGrammar

/-- Where a segment leads from a place. -/
def Place.step (place : Place) (segment : String) : Place :=
  if segment = "" ∨ segment = "." then place
  else if segment = ".." then place.above
  else place ++ [segment]

namespace Path

/-- The place that a path starts from. -/
def start (path : Path) : Place := if path.isAbsolute then ["/"] else []

/-- The segments of a path that are followed one after the other. -/
def steps (path : Path) : List String :=
  (((splitSlash path.text.toList).map String.ofList).reverse.dropWhile (· == "")).reverse

/-- The place that a path leads to if every step can be taken. -/
def place (path : Path) : Place := path.steps.foldl Place.step path.start

/-- The places that a path leads through, the last one included. -/
def way (path : Path) : List Place := path.steps.scanl Place.step path.start

/-- A path leads neither to the place of another one nor through it. -/
def Avoids (path other : Path) : Prop := other.place ∉ path.way

instance (path other : Path) : Decidable (path.Avoids other) :=
  inferInstanceAs (Decidable (other.place ∉ path.way))

theorem place_mem_way (path : Path) : path.place ∈ path.way := by
  have hlast : path.way.getLast? = some path.place := by
    rw [way, List.getLast?_scanl, place]
  exact List.mem_of_getLast? hlast

end Path

namespace FileSystem

variable {files files' : FileSystem}

/-- A segment can be followed from a folder, unless it is a name that is too long. -/
theorem walk_cons (files : FileSystem) (place : Place) (segment : String) (rest : List String) :
    files.walk place (segment :: rest) =
      match files.get? place with
      | none => .error .notFound
      | some (.file _) => .error .notFolder
      | some .folder =>
        if segment.utf8ByteSize > longestName then .error .nameTooLong
        else files.walk (place.step segment) rest := by
  rw [walk, Place.step]
  rcases files.get? place with - | ⟨- | -⟩
  · rfl
  · by_cases hidle : segment = "" ∨ segment = "."
    · have hshort : ¬ segment.utf8ByteSize > longestName := by
        rcases hidle with rfl | rfl <;> decide
      simp only [if_pos hidle, if_neg hshort]
    · by_cases hup : segment = ".."
      · have hshort : ¬ segment.utf8ByteSize > longestName := by
          subst hup
          decide
        simp only [if_neg hidle, if_pos hup, if_neg hshort]
      · simp only [if_neg hidle, if_neg hup]
  · rfl

theorem walk_eq_ok {place result : Place} {segments : List String}
    (h : files.walk place segments = .ok result) : segments.foldl Place.step place = result := by
  induction segments generalizing place with
  | nil => exact Except.ok.inj h
  | cons segment rest ih =>
    rw [walk_cons] at h
    split at h
    · cases h
    · cases h
    · split at h
      · cases h
      · exact ih h

theorem walk_congr {place : Place} {segments : List String}
    (h : ∀ p ∈ segments.scanl Place.step place, files.get? p = files'.get? p) :
    files.walk place segments = files'.walk place segments := by
  induction segments generalizing place with
  | nil => rfl
  | cons segment rest ih =>
    rw [List.scanl_cons, List.forall_mem_cons] at h
    rw [walk_cons, walk_cons, h.1, ih h.2]

variable {path : Path}

theorem placeOf_eq_ok {place : Place} (h : files.placeOf path = .ok place) : path.place = place := by
  unfold placeOf at h
  dsimp only at h
  split at h
  · cases h
  · split at h
    · cases h
    · split at h
      · cases h
      · exact walk_eq_ok h

theorem lookup_eq_ok {place : Place} {entry : Entry} (h : files.lookup path = .ok (place, entry)) :
    path.place = place ∧ files.get? path.place = some entry := by
  rw [lookup, bind_eq_ok_iff] at h
  obtain ⟨found, hfound, h⟩ := h
  obtain rfl := placeOf_eq_ok hfound
  split at h
  · next hget =>
    cases h
    exact ⟨rfl, hget⟩
  · next bytes hget =>
    split at h
    · cases h
    · cases h
      exact ⟨rfl, hget⟩
  · cases h

theorem get?_of_kind? {kind : EntryKind} (h : files.kind? path = some kind) :
    ∃ entry, files.get? path.place = some entry ∧ entry.kind = kind := by
  rw [kind?] at h
  split at h
  · next place entry hlookup =>
    obtain ⟨-, hget⟩ := lookup_eq_ok hlookup
    exact ⟨entry, hget, Option.some.inj h⟩
  · cases h

/-- Two file systems agree on everything that a path leads through. -/
def AgreeAlong (files files' : FileSystem) (path : Path) : Prop :=
  ∀ place ∈ path.way, files.get? place = files'.get? place

theorem AgreeAlong.placeOf_eq (h : files.AgreeAlong files' path) :
    files.placeOf path = files'.placeOf path := by
  have hwalk : files.walk path.start path.steps = files'.walk path.start path.steps :=
    walk_congr h
  unfold placeOf
  dsimp only
  split
  · rfl
  · split
    · rfl
    · split
      · rfl
      · exact hwalk

theorem AgreeAlong.lookup_eq (h : files.AgreeAlong files' path) :
    files.lookup path = files'.lookup path := by
  rw [lookup, lookup, ← h.placeOf_eq]
  cases hplace : files.placeOf path with
  | error error => rfl
  | ok place =>
    have hend : files.get? place = files'.get? place :=
      placeOf_eq_ok hplace ▸ h path.place path.place_mem_way
    simp only [bind, Except.bind, hend]

theorem AgreeAlong.readBytes_eq (h : files.AgreeAlong files' path) :
    files.readBytes path = files'.readBytes path := by
  rw [readBytes, readBytes, h.lookup_eq]

/-- A path does not notice a change at a place that it avoids. -/
theorem AgreeAlong.of_avoids {other : Path} (h : path.Avoids other)
    (hdiffer : ∀ place ≠ other.place, files.get? place = files'.get? place) :
    files.AgreeAlong files' path := fun place hplace =>
  hdiffer place fun heq => h (heq ▸ hplace)

end FileSystem

end HighlightGrammar

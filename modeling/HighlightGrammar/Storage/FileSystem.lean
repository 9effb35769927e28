import HighlightGrammar.Storage.Basic
import HighlightGrammar.Table

/-! # File systems as values

A file system is a table of folders and files. A place in it is the list of names that leads there
from the folder one stands in. That folder is always there, and so are the folders around it, but
nothing is known of what else they hold. -/
namespace HighlightGrammar

/-- A place: names from the outermost folder inwards. In front of them stands a `..` for every folder
that is left, or a `/` if they start at the root. -/
abbrev Place := List String

namespace Place

/-- Whether a name only leads to a folder around the one that one stands in. -/
def leavesFolder (name : String) : Bool := name == ".." || name == "/"

/-- Whether a place is the folder that one stands in or a folder around it. -/
def isAround (place : Place) : Bool := place.all leavesFolder

/-- Whether a place lies in the folder that one stands in. -/
def isInside (place : Place) : Bool := !place.any leavesFolder

/-- The folder that a place lies in; the root lies in itself. -/
def above (place : Place) : Place :=
  match place.getLast? with
  | none => [".."]
  | some last =>
    if last = ".." then place ++ [".."]
    else if last = "/" then place
    else place.dropLast

/-- Whether a place is another one or lies below it. -/
def isWithin (place outer : Place) : Bool :=
  outer.isPrefixOf place && isInside (place.drop outer.length)

end Place

/-- What lies at a place. -/
inductive Entry where
  | folder
  | file (bytes : ByteArray)

def Entry.kind : Entry → EntryKind
  | folder => .folder
  | file _ => .file

/-- Folders and files by their places. -/
structure FileSystem where
  entries : List (Place × Entry)

namespace FileSystem

def empty : FileSystem := ⟨[]⟩

/-- What lies at a place. -/
def get? (files : FileSystem) (place : Place) : Option Entry :=
  if place.isAround then some .folder else Table.get? (· == ·) place files.entries

/-- A folder lies at a place. -/
def hasFolder (files : FileSystem) (place : Place) : Bool :=
  match files.get? place with
  | some .folder => true
  | _ => false

/-- Puts an entry at a place. -/
def put (files : FileSystem) (place : Place) (entry : Entry) : FileSystem :=
  ⟨Table.put (· == ·) place entry files.entries⟩

/-- Takes away what lies at a place or below it. -/
def removeBelow (files : FileSystem) (place : Place) : FileSystem :=
  ⟨files.entries.filter fun e => !e.1.isWithin place⟩

/-- The names of what lies directly in a folder. -/
def namesIn (files : FileSystem) (place : Place) : List String :=
  files.entries.filterMap fun e =>
    if e.1.above == place then e.1.getLast? else none

/-- The number of bytes that a name may have. -/
def longestName : Nat := 255

/-- The number of bytes that a path may have. -/
def longestPath : Nat := 4095

/-- The place that segments lead to from a place. Everything but the last segment has to be there,
and be a folder. -/
def walk (files : FileSystem) : Place → List String → Except StorageError Place
  | place, [] => .ok place
  | place, segment :: rest =>
    match files.get? place with
    | none => .error .notFound
    | some (.file _) => .error .notFolder
    | some .folder =>
      if segment = "" ∨ segment = "." then files.walk place rest
      else if segment = ".." then files.walk place.above rest
      else if segment.utf8ByteSize > longestName then .error .nameTooLong
      else files.walk (place ++ [segment]) rest

/-- Whether a path ends in a slash. -/
def endsInSlash (path : Path) : Bool := path.text.toList.getLast? == some '/'

/-- The place that a path leads to, whether or not something lies there. -/
def placeOf (files : FileSystem) (path : Path) : Except StorageError Place :=
  let segments := (Path.splitSlash path.text.toList).map String.ofList
  if path.text.toList.contains '\x00' then .error .unusablePath
  else if path.text.isEmpty then .error .notFound
  else if path.text.utf8ByteSize > longestPath then .error .nameTooLong
  else
    files.walk (if path.isAbsolute then ["/"] else [])
      (segments.reverse.dropWhile (· == "")).reverse

/-- What a path leads to. Behind a slash there can only be a folder. -/
def lookup (files : FileSystem) (path : Path) : Except StorageError (Place × Entry) := do
  let place ← files.placeOf path
  match files.get? place with
  | some .folder => return (place, .folder)
  | some (.file bytes) => if endsInSlash path then throw .notFolder else return (place, .file bytes)
  | none => throw .notFound

def readBytes (files : FileSystem) (path : Path) : Except StorageError ByteArray := do
  match ← files.lookup path with
  | (_, .file bytes) => return bytes
  | (_, .folder) => throw .isFolder

def writeBytes (files : FileSystem) (path : Path) (bytes : ByteArray) :
    Except StorageError FileSystem := do
  let place ← files.placeOf path
  if files.hasFolder place || endsInSlash path then throw .isFolder
  else if files.hasFolder place.above then return files.put place (.file bytes)
  else throw .notFound

def makeFolder (files : FileSystem) (path : Path) : Except StorageError FileSystem := do
  let place ← files.placeOf path
  if (files.get? place).isSome then throw .alreadyExists
  else if files.hasFolder place.above then return files.put place .folder
  else throw .notFound

def names (files : FileSystem) (path : Path) : Except StorageError (List String) := do
  match ← files.lookup path with
  | (place, .folder) => return files.namesIn place
  | (_, .file _) => throw .notFolder

def kind? (files : FileSystem) (path : Path) : Option EntryKind :=
  match files.lookup path with
  | .ok (_, entry) => some entry.kind
  | .error _ => none

/-- Removes a folder with everything in it. The folder one stands in is emptied but stays. -/
def removeTree (path : Path) : ExceptT StorageError (StateM FileSystem) Unit := do
  match (← get).lookup path with
  | .error error => throw error
  | .ok (_, .file _) => throw .notFolder
  | .ok (place, .folder) =>
    modify fun files => files.removeBelow place
    if place.isEmpty then throw .invalidArgument else return

/-- An operation that changes a file system only if it succeeds. -/
def update (change : FileSystem → Except StorageError FileSystem) :
    ExceptT StorageError (StateM FileSystem) Unit := do
  match change (← get) with
  | .ok files => set files
  | .error error => throw error

/-- An operation that changes nothing. -/
def query {α : Type} (answer : FileSystem → Except StorageError α) :
    ExceptT StorageError (StateM FileSystem) α := do
  match answer (← get) with
  | .ok value => return value
  | .error error => throw error

instance : Storage (StateM FileSystem) where
  readBytes path := query fun files => files.readBytes path
  writeBytes path bytes := update fun files => files.writeBytes path bytes
  makeFolder path := update fun files => files.makeFolder path
  removeTree := removeTree
  names path := query fun files => files.names path
  kind? path := do return (← get).kind? path

end FileSystem

end HighlightGrammar

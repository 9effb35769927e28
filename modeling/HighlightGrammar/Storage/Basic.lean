import HighlightGrammar.Path

/-! # Storage

Grammars, settings, cases and reports lie in files. What the library needs of them is a handful of
operations, given as a class so that it runs on the files of a machine as well as on a value. -/
namespace HighlightGrammar

/-- Why an operation on files failed. -/
inductive StorageError where
  | notFound
  | alreadyExists
  | notFolder
  | isFolder
  | invalidArgument
  | nameTooLong
  /-- A path with the character NUL. -/
  | unusablePath
  /-- Bytes that are not UTF-8 where text is wanted. -/
  | notText
  /-- Folders of which even the outermost could not be made. -/
  | noOutermostFolder
  /-- Any other fault, in the words of the machine. -/
  | other (text : String)
deriving DecidableEq, Repr

def StorageError.message : StorageError → String
  | notFound => "No such file or directory (os error 2)"
  | alreadyExists => "File exists (os error 17)"
  | notFolder => "Not a directory (os error 20)"
  | isFolder => "Is a directory (os error 21)"
  | invalidArgument => "Invalid argument (os error 22)"
  | nameTooLong => "File name too long (os error 36)"
  | unusablePath => "file name contained an unexpected NUL byte"
  | notText => "stream did not contain valid UTF-8"
  | noOutermostFolder => "failed to create whole tree"
  | other text => text

/-- What a path may lead to. -/
inductive EntryKind where
  | folder
  | file
deriving DecidableEq, Repr

/-- Operations on files. -/
class Storage (m : Type → Type) where
  /-- The bytes of a file. -/
  readBytes : Path → ExceptT StorageError m ByteArray
  /-- Makes a file with these bytes, or replaces those of a file. -/
  writeBytes : Path → ByteArray → ExceptT StorageError m Unit
  /-- Makes a folder in a folder that is there. -/
  makeFolder : Path → ExceptT StorageError m Unit
  /-- Removes a folder with everything in it. -/
  removeTree : Path → ExceptT StorageError m Unit
  /-- The names in a folder, in any order. -/
  names : Path → ExceptT StorageError m (List String)
  /-- What a path leads to, if anything. -/
  kind? : Path → m (Option EntryKind)

namespace Storage

variable {m : Type → Type} [Monad m] [Storage m]

/-- The text of a file. -/
def readText (path : Path) : ExceptT StorageError m String := do
  match String.fromUTF8? (← readBytes path) with
  | some text => return text
  | none => throw .notText

/-- Writes a text to a file. -/
def writeText (path : Path) (text : String) : ExceptT StorageError m Unit :=
  writeBytes path text.toUTF8

/-- Whether a path leads to something. -/
def isThere (path : Path) : m Bool := do return (← kind? path).isSome

def isFile (path : Path) : m Bool := do return (← kind? path) == some .file

def isFolder (path : Path) : m Bool := do return (← kind? path) == some .folder

/-- Makes a folder; if that fails it is enough that the folder is there. -/
def ensureFolder (path : Path) : ExceptT StorageError m Unit :=
  tryCatch (makeFolder path) fun error => do
    if ← ExceptT.lift (isFolder path) then return else throw error

/-- Makes the first of several folders, each of which lies in the next. The folders around it are
made only if it cannot be made without them. -/
def createAlong : List Path → ExceptT StorageError m Unit
  | [] => throw .noOutermostFolder
  | path :: around =>
    if path.text.isEmpty then return
    else tryCatch (ensureFolder path) fun error => do
      if error = .notFound then
        createAlong around
        ensureFolder path
      else throw error

/-- Makes a folder with all folders around it. -/
def createFolders (path : Path) : ExceptT StorageError m Unit := createAlong path.ancestors

end Storage

end HighlightGrammar

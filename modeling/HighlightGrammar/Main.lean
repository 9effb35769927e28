import HighlightGrammar.CommandLine.Run

/-! # The program

The command line on the files of a machine. No name is too long for it to look for. -/
namespace HighlightGrammar.Machine

/-- The number that the machine gives to a fault, with its words for it. -/
def describe : IO.Error → UInt32 × String
  | .noFileOrDirectory _ code text => (code, text)
  | .alreadyExists _ code text => (code, text)
  | .inappropriateType _ code text => (code, text)
  | .invalidArgument _ code text => (code, text)
  | .permissionDenied _ code text => (code, text)
  | .resourceExhausted _ code text => (code, text)
  | .noSuchThing _ code text => (code, text)
  | .otherError code text => (code, text)
  | error => (0, toString error)

/-- A fault of the machine. Some operations give the number with a minus sign. -/
def faultOf (error : IO.Error) : StorageError :=
  let (number, text) := describe error
  let code := if number > 0x7FFFFFFF then 0 - number else number
  if code = 2 then .notFound
  else if code = 17 then .alreadyExists
  else if code = 20 then .notFolder
  else if code = 21 then .isFolder
  else if code = 22 then .invalidArgument
  else if code = 36 then .nameTooLong
  else .other s!"{text} (os error {code})"

/-- An operation on the file of a path, its faults named. -/
def onFile {α : Type} (path : Path) (operation : IO α) : ExceptT StorageError IO α :=
  if path.text.toList.contains '\x00' then throw .unusablePath
  else do
    match ← ExceptT.lift (operation.toBaseIO : IO (Except IO.Error α)) with
    | .ok value => return value
    | .error error => throw (faultOf error)

/-- What a path leads to. -/
def kindOf (path : Path) : IO (Option EntryKind) := do
  match ← (onFile path (System.mkFilePath [path.text]).metadata).run with
  | .ok data =>
    return some (if data.type == .dir then .folder else .file)
  | .error _ => return none

instance : Storage IO where
  readBytes path := onFile path (IO.FS.readBinFile (System.mkFilePath [path.text]))
  writeBytes path bytes := onFile path (IO.FS.writeBinFile (System.mkFilePath [path.text]) bytes)
  makeFolder path := onFile path (IO.FS.createDir (System.mkFilePath [path.text]))
  removeTree path := onFile path (IO.FS.removeDirAll (System.mkFilePath [path.text]))
  names path := onFile path do
    return (← (System.mkFilePath [path.text]).readDir).toList.map (·.fileName)
  kind? := kindOf

instance : MatcherEngine := .unlimited

end HighlightGrammar.Machine

/-- Runs the command that the arguments make. -/
def main (words : List String) : IO UInt32 := do
  let outcome ← HighlightGrammar.CommandLine.run (m := IO) words
  (← IO.getStdout).putStr outcome.output
  (← IO.getStderr).putStr outcome.errors
  return UInt32.ofNat outcome.code

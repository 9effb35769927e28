import HighlightGrammar.Storage.FileSystem

/-! # Scripts

A script is an action on files that is laid out operation by operation. Between two operations of a
script others may use the files, and a script may start tasks that go on beside it. -/
namespace HighlightGrammar

/-- A single operation on files. -/
inductive StorageRequest where
  | readBytes (path : Path)
  | writeBytes (path : Path) (bytes : ByteArray)
  | makeFolder (path : Path)
  | removeTree (path : Path)
  | names (path : Path)
  | kind? (path : Path)

namespace StorageRequest

/-- What comes back from an operation. -/
def Answer : StorageRequest → Type
  | readBytes _ => Except StorageError ByteArray
  | writeBytes _ _ => Except StorageError Unit
  | makeFolder _ => Except StorageError Unit
  | removeTree _ => Except StorageError Unit
  | names _ => Except StorageError (List String)
  | kind? _ => Option EntryKind

/-- Carries out an operation. -/
def perform : (request : StorageRequest) → StateM FileSystem request.Answer
  | readBytes path => ExceptT.run (Storage.readBytes path)
  | writeBytes path bytes => ExceptT.run (Storage.writeBytes path bytes)
  | makeFolder path => ExceptT.run (Storage.makeFolder path)
  | removeTree path => ExceptT.run (Storage.removeTree path)
  | names path => ExceptT.run (Storage.names path)
  | kind? path => Storage.kind? path

end StorageRequest

/-- An action with results of type `α`, laid out operation by operation, that starts tasks named by
`τ`. -/
inductive Script (τ α : Type) where
  | done (result : α)
  | ask (request : StorageRequest) (next : request.Answer → Script τ α)
  | spawn (task : τ) (next : Script τ α)

namespace Script

variable {τ α β : Type}

def bind : Script τ α → (α → Script τ β) → Script τ β
  | done result, f => f result
  | ask request next, f => ask request fun answer => (next answer).bind f
  | spawn task next, f => spawn task (next.bind f)

instance : Monad (Script τ) where
  pure := done
  bind := bind

/-- The script of a single operation. -/
def request (request : StorageRequest) : Script τ request.Answer := ask request done

instance : Storage (Script τ) where
  readBytes path := ExceptT.mk (request (.readBytes path))
  writeBytes path bytes := ExceptT.mk (request (.writeBytes path bytes))
  makeFolder path := ExceptT.mk (request (.makeFolder path))
  removeTree path := ExceptT.mk (request (.removeTree path))
  names path := ExceptT.mk (request (.names path))
  kind? path := request (.kind? path)

/-- The script that starts a task. -/
def start (task : τ) : Script τ Unit := spawn task (done ())

end Script

end HighlightGrammar

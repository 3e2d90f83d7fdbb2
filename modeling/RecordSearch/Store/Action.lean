import RecordSearch.Store.Disk
import RecordSearch.Store.Error

/-!
# Actions on a disk

Computations that read and change a disk and may fail. What was changed before a failure stays changed.
-/

namespace RecordSearch

/-- What an action gets from outside: the working directory and the time, in seconds since the epoch. -/
structure Surroundings where
  workingDirectory : Location := []
  now : UInt64
  deriving Repr

abbrev Action := ExceptT StoreError (StateM Disk)

namespace Action

def fail {α : Type} (e : StoreError) : Action α := throw e

def ofExcept {α : Type} : Except StoreError α → Action α
  | .ok a => pure a
  | .error e => throw e

/-- Changes the disk by an operation that the file system may refuse. -/
def change (f : Disk → Option Disk) : Action Unit := do
  match f (← get) with
  | some disk => set disk
  | none => throw .fileSystem

/-- The lines of a file; only texts have lines. -/
def readLines (l : Location) : Action (List (List Char)) := do
  match (← get).content? l with
  | some (.text content) => pure (Text.lines content)
  | _ => throw .fileSystem

end Action

end RecordSearch

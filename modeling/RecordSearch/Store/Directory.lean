import RecordSearch.Predicate.Eval
import RecordSearch.Record.Decoder
import RecordSearch.Record.Printer
import RecordSearch.Store.Action
import RecordSearch.Store.Meta
import RecordSearch.Text.Blank

/-!
# Stores made of files

A directory with a file of metadata and a file of records, one on each line. An open store keeps the
records it has read and those it has added; it does not notice what others write.
-/

namespace RecordSearch

/-- The records of the lines that are not blank, or the number of the first line, counted from one with
blank ones, that holds no record. -/
def recordsOfLines : Nat → List (List Char) → Except Nat (List Record)
  | _, [] => .ok []
  | n, line :: rest =>
      if Text.allBlank line then recordsOfLines (n + 1) rest
      else match Record.parse line with
        | .error _ => .error n
        | .ok r => (recordsOfLines (n + 1) rest).map (r :: ·)

/-- A record as a line of a file. -/
def Record.line (r : Record) : List Char := r.print ++ ['\n']

structure DirectoryStore where
  place : Place
  metadata : Option StoreMeta
  records : List Record
  deriving Repr

namespace DirectoryStore

def metadataPlace (place : Place) : Place := place.child "meta.json"

def recordsPlace (place : Place) : Place := place.child "records.jsonl"

/-- Where metadata is written before it takes the place of the old. -/
def draftPlace (place : Place) : Place := place.child "meta.json.tmp"

/-- The directories of a store, which are made if they do not exist. -/
def directories (place : Place) : List Location := place.way ++ [place.location]

def readMetadata (place : Place) : Action (Option StoreMeta) := do
  let file := metadataPlace place
  match (← get).content? file.location with
  | none => pure none
  | some (.text content) =>
      match StoreMeta.parse? content with
      | some m => some <$> Action.ofExcept m.supported
      | none => throw (.invalidMetadata file.path)
  | some _ => throw (.invalidMetadata file.path)

def readRecords (place : Place) : Action (List Record) := do
  let file := recordsPlace place
  if (← get).exists? file.location then
    match recordsOfLines 1 (← Action.readLines file.location) with
    | .ok records => pure records
    | .error line => throw (.corruptLine line file.path)
  else pure []

/-- Opens the store in a directory, which is made if it does not exist. -/
def openAt (place : Place) : Action DirectoryStore := do
  Action.change (·.makeDirectories (directories place))
  let metadata ← readMetadata place
  let records ← readRecords place
  pure ⟨place, metadata, records⟩

/-- The metadata last read or saved; that of a new store if there is none. -/
def loadMetadata (store : DirectoryStore) (now : UInt64) : StoreMeta :=
  store.metadata.getD (StoreMeta.fresh now)

def saveMetadata (store : DirectoryStore) (m : StoreMeta) : Action DirectoryStore := do
  let draft := (draftPlace store.place).location
  Action.change (·.writeText? draft m.print)
  Action.change (·.rename? draft (metadataPlace store.place).location)
  pure { store with metadata := some m }

def insert (store : DirectoryStore) (records : List Record) : Action DirectoryStore := do
  Action.change (·.appendText? (recordsPlace store.place).location (records.flatMap Record.line))
  pure { store with records := store.records ++ records }

/-! ### On a medium that gives out -/

/-- An opening that comes no further than the first of the directories. -/
def openUpTo (steps : Nat) (place : Place) : Action DirectoryStore := do
  Action.change (·.makeDirectories ((directories place).take steps))
  throw .fileSystem

/-- An insert that leaves only the first bytes of the new lines, or nothing if the file cannot be opened. -/
def insertUpTo (store : DirectoryStore) (records : List Record) : Option Nat → Action DirectoryStore
  | none => throw .fileSystem
  | some n => do
      let file := (recordsPlace store.place).location
      Action.change fun disk => Disk.writeBytes? (disk.appendText? file) file n (records.flatMap Record.line)
      throw .fileSystem

/-- A save that leaves only the first bytes of the draft, or no new draft, and the metadata as it was. -/
def saveMetadataUpTo (store : DirectoryStore) (m : StoreMeta) : Option Nat → Action DirectoryStore
  | none => throw .fileSystem
  | some n => do
      let draft := (draftPlace store.place).location
      Action.change fun disk => Disk.writeBytes? (disk.writeText? draft) draft n m.print
      throw .fileSystem

/-! ### What an open store tells -/

def count (store : DirectoryStore) (table : RecordTable) : Nat :=
  store.records.countP (·.table == table)

def find (store : DirectoryStore) (scope : Scope) (filter : Filter) : List Record :=
  store.records.filter fun r => r.inScope scope && filter.accepts r.toJson

end DirectoryStore

end RecordSearch

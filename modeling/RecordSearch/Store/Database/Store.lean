import RecordSearch.Record.Decoder
import RecordSearch.Record.Printer
import RecordSearch.Store.Action
import RecordSearch.Store.Database.Query
import RecordSearch.Store.Meta

/-!
# Stores in a database

A file that holds a database with a row for each record. Every operation reads and writes that file; an
open store keeps nothing but its place. Two names are not taken for paths of files: the database that they
give belongs to the open store and is gone with it.
-/

namespace RecordSearch

/-- Adds a row for each record. -/
def Database.addRecords (records : List Record) (db : Database) : Database :=
  records.foldl (fun db r => db.addRow r.table.name (r.variant?.map (·.name)) r.print) db

structure DatabaseStore where
  place : Place
  /-- The database, if it is not kept in a file. -/
  own : Option Database
  deriving DecidableEq, Repr

namespace DatabaseStore

/-- The names under which whoever opens a database gets one of his own, which nobody else sees. -/
def privateNames : List String := ["", ":memory:"]

/-- What a name begins with that the database library reads as a URI and not as a path. -/
def uriScheme : String := "file:"

/-- The name is taken for the path of a file. -/
def NamesFile (name : String) : Prop := name ∉ privateNames ∧ ¬ uriScheme.toList <+: name.toList

instance (name : String) : Decidable (NamesFile name) := inferInstanceAs (Decidable (_ ∧ _))

/-- Opens a database in a file, which is made if there is none or an empty one. -/
def openFile (place : Place) : Action DatabaseStore := do
  Action.change (·.makeDirectories place.way)
  match (← get).content? place.location with
  | some (.database _) => pure ⟨place, none⟩
  | none | some (.text []) => do
      modify (·.insert place.location (.database {}))
      pure ⟨place, none⟩
  | _ => throw .database

/-- Opens a database. URIs are not followed: a name that begins like one is taken for a path here. -/
def openAt (place : Place) : Action DatabaseStore :=
  if place.path ∈ privateNames then pure ⟨place, some {}⟩ else openFile place

/-- The database of the store, if there is one where the store keeps it. -/
def database? (store : DatabaseStore) (disk : Disk) : Option Database :=
  match store.own, disk.content? store.place.location with
  | some db, _ => some db
  | none, some (.database db) => some db
  | none, _ => none

def read (store : DatabaseStore) : Action Database := do
  match store.database? (← get) with
  | some db => pure db
  | none => throw .database

def write (store : DatabaseStore) (db : Database) : Action DatabaseStore := do
  match store.own with
  | some _ => pure { store with own := some db }
  | none => do
      modify (·.insert store.place.location (.database db))
      pure store

def number? (rows : List (String × String)) (key : String) : Option UInt64 :=
  (rows.lookup key).bind fun s => Text.Decimal.uint64? s.toList

/-- The metadata in the rows; that of a new store if there are none. -/
def metadataOfRows (now : UInt64) (rows : List (String × String)) : Except StoreError StoreMeta :=
  if rows.isEmpty then .ok (StoreMeta.fresh now)
  else
    let version := (rows.lookup "schema_version").getD schemaVersion
    let createdAt := (number? rows "created_at").getD 0
    StoreMeta.supported
      ⟨version, (rows.lookup "tool_version").getD "unknown", createdAt,
        (number? rows "updated_at").getD createdAt⟩

def rowsOfMetadata (m : StoreMeta) : List (String × String) :=
  [("schema_version", m.schemaVersion), ("tool_version", m.toolVersion),
    ("created_at", String.ofList (Text.Decimal.ofNat m.createdAt.toNat)),
    ("updated_at", String.ofList (Text.Decimal.ofNat m.updatedAt.toNat))]

def loadMetadata (store : DatabaseStore) (now : UInt64) : Action StoreMeta := do
  Action.ofExcept (metadataOfRows now (← store.read).metadata)

def saveMetadata (store : DatabaseStore) (m : StoreMeta) : Action DatabaseStore := do
  store.write { ← store.read with metadata := rowsOfMetadata m }

def insert (store : DatabaseStore) (records : List Record) : Action DatabaseStore := do
  let db ← store.read
  store.write (db.addRecords records)

/-- An opening that comes no further than the first of the directories or, after all of these, an empty file
or a database without rows where there was none. -/
def openUpTo (steps : Nat) (place : Place) : Action DatabaseStore := do
  if place.path ∉ privateNames then
    Action.change (·.makeDirectories (place.way.take steps))
    let found := (← get).content? place.location
    if place.way.length < steps ∧ (found = none ∨ found = some (.text [])) then
      let made : Entry := if place.way.length + 1 < steps then .database {} else .text []
      modify (·.insert place.location made)
  throw .database

/-- A transaction that is broken off is taken back. -/
def breakOff (_ : DatabaseStore) : Action DatabaseStore := throw .database

def count (store : DatabaseStore) (table : RecordTable) : Action Nat := do
  pure ((← store.read).records.countP (·.entity == table.name))

def recordsOfRows : List RecordRow → Except StoreError (List Record)
  | [] => .ok []
  | row :: rest =>
      match Record.parse row.body with
      | .error _ => .error (.corruptRow row.id)
      | .ok r => (recordsOfRows rest).map (r :: ·)

/-- The records in a scope that a filter accepts, in order. -/
def find (store : DatabaseStore) (scope : Scope) (filter : Filter) : Action (List Record) := do
  match (← store.read).select (Clause.ofSearch scope filter) with
  | .error _ => throw .database
  | .ok rows => Action.ofExcept (recordsOfRows rows)

end DatabaseStore

end RecordSearch

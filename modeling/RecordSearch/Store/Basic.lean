import RecordSearch.Entity
import RecordSearch.Store.Database.Store
import RecordSearch.Store.Directory
import RecordSearch.Timestamp.Epoch

/-!
# Stores

The two kinds of stores behind one set of operations, and what is done with a store as a whole: loading
records from a file, describing it, and searching it.
-/

namespace RecordSearch

inductive Backend where
  | file
  | sqlite
  deriving DecidableEq, Repr, Inhabited

namespace Backend

def all : List Backend := [.file, .sqlite]

def name : Backend → String
  | .file => "file"
  | .sqlite => "sqlite"

def ofName? (name : String) : Option Backend := all.find? (·.name = name)

/-- Where a store is if no path is given. -/
def defaultPath : Backend → String
  | .file => ".appsearch/store"
  | .sqlite => ".appsearch/store.sqlite"

end Backend

/-- Which kind of store, and the path of its directory or file. -/
structure StoreConfig where
  backend : Backend := .file
  path : String := Backend.file.defaultPath
  deriving DecidableEq, Repr

namespace StoreConfig

def toJson (c : StoreConfig) : Json :=
  .object [("backend", .string c.backend.name), ("store_path", .string c.path)]

def shape : Json.Shape :=
  .struct [("backend", true, .word (Backend.all.map (·.name))), ("store_path", true, .text)]

def ofJson? (v : Json) : Option StoreConfig := do
  let backend ← Backend.ofName? (← (← v.member? "backend").text?)
  let path ← (← v.member? "store_path").text?
  some ⟨backend, path⟩

end StoreConfig

inductive Store where
  | directory (store : DirectoryStore)
  | database (store : DatabaseStore)
  deriving Repr

namespace Store

def backend : Store → Backend
  | .directory _ => .file
  | .database _ => .sqlite

def path : Store → String
  | .directory store => store.place.path
  | .database store => store.place.path

/-- Opens a store, which is made if it does not exist. -/
def openOrCreate (env : Surroundings) (config : StoreConfig) : Action Store :=
  let place := Place.ofPath env.workingDirectory config.path
  match config.backend with
  | .file => .directory <$> DirectoryStore.openAt place
  | .sqlite => .database <$> DatabaseStore.openAt place

/-- Opens a store that must be there. -/
def openExisting (env : Surroundings) (config : StoreConfig) : Action Store := do
  let disk ← get
  let some location := disk.follow? env.workingDirectory config.path | throw (.notFound config.path)
  match config.backend with
  | .file => if ¬ disk.isDirectory location then throw (.notDirectory config.path)
  | .sqlite => if ¬ disk.isFile location then throw (.notFile config.path)
  openOrCreate env config

def loadMetadata (env : Surroundings) : Store → Action StoreMeta
  | .directory store => pure (store.loadMetadata env.now)
  | .database store => store.loadMetadata env.now

def saveMetadata (m : StoreMeta) : Store → Action Store
  | .directory store => .directory <$> store.saveMetadata m
  | .database store => .database <$> store.saveMetadata m

def insert (records : List Record) : Store → Action Store
  | .directory store => .directory <$> store.insert records
  | .database store => .database <$> store.insert records

def count (table : RecordTable) : Store → Action Nat
  | .directory store => pure (store.count table)
  | .database store => store.count table

def find (scope : Scope) (filter : Filter) : Store → Action (List Record)
  | .directory store => pure (store.find scope filter)
  | .database store => store.find scope filter

end Store

structure StoreSummary where
  backend : Backend
  path : String
  /-- The number of records that a load has added. -/
  loaded : Option Nat
  /-- The number of records of each table, in the order of the names of the tables. -/
  counts : List (String × Nat)
  schemaVersion : Option String
  toolVersion : Option String
  createdAt : Option String
  updatedAt : Option String
  deriving DecidableEq, Repr

/-- The summary as an object, without what is absent. -/
def StoreSummary.toJson (s : StoreSummary) : Json :=
  .object ([("backend", .string s.backend.name), ("store_path", .string s.path)] ++
    optionalMember "records_loaded" (fun (n : Nat) => .ofInt n) s.loaded ++
    [("counts", .object (s.counts.map fun (table, n) => (table, .ofInt n)))] ++
    optionalMember "schema_version" .string s.schemaVersion ++
    optionalMember "tool_version" .string s.toolVersion ++
    optionalMember "created_at" .string s.createdAt ++
    optionalMember "updated_at" .string s.updatedAt)

/-- The optional member of an object, which must be of the right type if it is there. -/
def optionalField? {α : Type} (read : Json → Option α) (name : String) (v : Json) : Option (Option α) :=
  match v.member? name with
  | none => some none
  | some x => (read x).map some

def StoreSummary.ofJson? (v : Json) : Option StoreSummary := do
  let backend ← Backend.ofName? (← (← v.member? "backend").text?)
  let path ← (← v.member? "store_path").text?
  let loaded ← optionalField? (fun x => x.uint64?.map UInt64.toNat) "records_loaded" v
  let .object ms ← v.member? "counts" | none
  let counts ← ms.mapM fun (table, n) => n.uint64?.map fun n => (table, n.toNat)
  let schemaVersion ← optionalField? Json.text? "schema_version" v
  let toolVersion ← optionalField? Json.text? "tool_version" v
  let createdAt ← optionalField? Json.text? "created_at" v
  let updatedAt ← optionalField? Json.text? "updated_at" v
  some ⟨backend, path, loaded, counts, schemaVersion, toolVersion, createdAt, updatedAt⟩

namespace Store

def tablesByName : List RecordTable := [.account, .application, .user]

def summary (store : Store) (m : StoreMeta) (loaded : Option Nat) : Action StoreSummary := do
  let counts ← tablesByName.mapM fun table => do pure (table.name, ← store.count table)
  pure ⟨store.backend, store.path, loaded, counts, some m.schemaVersion, some m.toolVersion,
    showEpoch? m.createdAt, showEpoch? m.updatedAt⟩

/-- The records of a file, one on each line that is not blank. -/
def readInput (env : Surroundings) (path : String) : Action (List Record) := do
  let some location := (← get).follow? env.workingDirectory path | throw (.cannotOpen path)
  match recordsOfLines 1 (← Action.readLines location) with
  | .ok records => pure records
  | .error line => throw (.invalidLine line path)

/-- Where the medium gives out in the course of a load. -/
inductive Fault where
  /-- The input is not read to its end. -/
  | readingInput
  /-- Only the first of what opening makes is made. -/
  | opening (steps : Nat)
  | loadingMetadata
  /-- Only the first bytes of a file are written, if it is opened at all. -/
  | inserting (written : Option Nat)
  | savingMetadata (written : Option Nat)
  | counting
  deriving DecidableEq, Repr

def readInputOn (fault : Option Fault) (env : Surroundings) (path : String) : Action (List Record) :=
  match fault with
  | some .readingInput => throw .fileSystem
  | _ => readInput env path

def openOrCreateOn (fault : Option Fault) (env : Surroundings) (config : StoreConfig) : Action Store :=
  match fault with
  | some (.opening steps) =>
      let place := Place.ofPath env.workingDirectory config.path
      match config.backend with
      | .file => .directory <$> DirectoryStore.openUpTo steps place
      | .sqlite => .database <$> DatabaseStore.openUpTo steps place
  | _ => openOrCreate env config

def loadMetadataOn (fault : Option Fault) (env : Surroundings) (store : Store) : Action StoreMeta :=
  match fault with
  | some .loadingMetadata => throw .database
  | _ => store.loadMetadata env

def insertOn (fault : Option Fault) (records : List Record) (store : Store) : Action Store :=
  match fault, store with
  | some (.inserting written), .directory store => .directory <$> store.insertUpTo records written
  | some (.inserting _), .database store => .database <$> store.breakOff
  | _, store => store.insert records

def saveMetadataOn (fault : Option Fault) (m : StoreMeta) (store : Store) : Action Store :=
  match fault, store with
  | some (.savingMetadata written), .directory store => .directory <$> store.saveMetadataUpTo m written
  | some (.savingMetadata _), .database store => .database <$> store.breakOff
  | _, store => store.saveMetadata m

def summaryOn (fault : Option Fault) (store : Store) (m : StoreMeta) (loaded : Option Nat) :
    Action StoreSummary :=
  match fault with
  | some .counting => throw .database
  | _ => store.summary m loaded

/-- What comes before the records are inserted. All of the input is read before the store is opened. -/
def prepareOn (fault : Option Fault) (env : Surroundings) (config : StoreConfig) (input : String) :
    Action (List Record × Store × StoreMeta) := do
  let records ← readInputOn fault env input
  let store ← openOrCreateOn fault env config
  pure (records, store, ← store.loadMetadataOn fault env)

/-- What comes after the records are inserted. -/
def concludeOn (fault : Option Fault) (env : Surroundings) (m : StoreMeta) (loaded : Nat) (store : Store) :
    Action StoreSummary := do
  let m := { m with updatedAt := env.now }
  let store ← store.saveMetadataOn fault m
  store.summaryOn fault m (some loaded)

/-- Adds the records of a file to a store, on a medium that may give out. -/
def loadOn (fault : Option Fault) (env : Surroundings) (config : StoreConfig) (input : String) :
    Action StoreSummary := do
  let (records, store, m) ← prepareOn fault env config input
  let store ← store.insertOn fault records
  store.concludeOn fault env m records.length

/-- Adds the records of a file to a store. -/
def load (env : Surroundings) (config : StoreConfig) (input : String) : Action StoreSummary :=
  loadOn none env config input

def info (env : Surroundings) (config : StoreConfig) : Action StoreSummary := do
  let store ← openExisting env config
  store.summary (← store.loadMetadata env) none

end Store

/-! ## Searches -/

structure SearchRequest where
  entity : String
  query : String := ""
  byOr : Bool := false
  store : Option StoreConfig := none
  deriving DecidableEq, Repr

inductive SearchFailure where
  | rejected (error : SearchError)
  | store (error : StoreError)
  deriving Repr

/-- The records that a query finds. The query is compiled before the store is looked at. -/
def SearchRequest.run (env : Surroundings) (request : SearchRequest) (disk : Disk) :
    Except SearchFailure (List Record) × Disk :=
  let compiled := do
    let entity ← Entity.ofName request.entity
    entity.compile request.query request.byOr
  match compiled with
  | .error e => (.error (.rejected e), disk)
  | .ok (scope, filter) =>
      let search : Action (List Record) := do
        let store ← Store.openExisting env (request.store.getD {})
        store.find scope filter
      let (found, disk) := search disk
      (found.mapError .store, disk)

end RecordSearch

/-!
# Errors of stores

Why a store cannot be opened, read or written, with the message for each cause. What the file system or
the database reports has no message of its own.
-/

namespace RecordSearch

/-- The version of the format that this program reads and writes. -/
def schemaVersion : String := "1"

inductive StoreError where
  | notFound (path : String)
  /-- The path of a store made of files does not lead to a directory. -/
  | notDirectory (path : String)
  /-- The path of a database does not lead to a file. -/
  | notFile (path : String)
  | invalidMetadata (path : String)
  | unsupportedSchema (version : String)
  /-- A stored line is no record. -/
  | corruptLine (line : Nat) (path : String)
  | corruptRow (id : Nat)
  | cannotOpen (path : String)
  /-- A line of the input is no record. -/
  | invalidLine (line : Nat) (path : String)
  /-- The file system refuses an operation. -/
  | fileSystem
  /-- The database refuses a file or a statement. -/
  | database
  deriving DecidableEq, Repr, Inhabited

/-- The message of an error that is not the file system's or the database's own. -/
def StoreError.message? : StoreError → Option String
  | .notFound path => some s!"store not found at {path}"
  | .notDirectory path => some s!"file backend requires store_path to be a directory; got {path}"
  | .notFile path => some s!"sqlite backend requires store_path to be a file; got {path}"
  | .invalidMetadata path => some s!"invalid store metadata in {path}"
  | .unsupportedSchema version =>
      some s!"unsupported store schema version {version}; expected {schemaVersion}"
  | .corruptLine line path => some s!"corrupt record on line {line} of {path}"
  | .corruptRow id => some s!"corrupt record body for row {id}"
  | .cannotOpen path => some s!"cannot open {path}"
  | .invalidLine line path => some s!"invalid record on line {line} of {path}"
  | .fileSystem | .database => none

end RecordSearch

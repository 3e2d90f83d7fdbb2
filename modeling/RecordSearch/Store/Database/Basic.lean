/-!
# The database of a store

Its two tables: the rows of records, each with the number of its row, and the metadata as texts by key.
-/

namespace RecordSearch

structure RecordRow where
  id : Nat
  entity : String
  variant : Option String
  body : List Char
  deriving DecidableEq, Repr

/-- What the tables hold. A table that is missing counts as an empty one: it is made whenever the database is
opened. How the file keeps a log of its changes, which opening it may change as well, is left out. -/
structure Database where
  /-- Keys are unique. -/
  metadata : List (String × String) := []
  /-- In ascending order of their numbers. -/
  records : List RecordRow := []
  deriving DecidableEq, Repr, Inhabited

namespace Database

def nextId (db : Database) : Nat := (db.records.map (·.id)).foldl max 0 + 1

def addRow (db : Database) (entity : String) (variant : Option String) (body : List Char) : Database :=
  { db with records := db.records ++ [⟨db.nextId, entity, variant, body⟩] }

end Database

end RecordSearch

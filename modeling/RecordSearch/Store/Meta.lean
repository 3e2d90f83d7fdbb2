import RecordSearch.Json.Printer
import RecordSearch.Json.Shape
import RecordSearch.Store.Error

/-!
# Metadata of stores

Which version of the format a store has, which version of the program created it, and when it was created
and last written to, in seconds since the epoch.
-/

namespace RecordSearch

structure StoreMeta where
  schemaVersion : String
  toolVersion : String
  createdAt : UInt64
  updatedAt : UInt64
  deriving DecidableEq, Repr

def toolVersion : String := "0.0.0"

namespace StoreMeta

def fresh (now : UInt64) : StoreMeta := ⟨RecordSearch.schemaVersion, RecordSearch.toolVersion, now, now⟩

/-- Metadata of the version of the format that this program knows. -/
def supported (m : StoreMeta) : Except StoreError StoreMeta :=
  if m.schemaVersion = RecordSearch.schemaVersion then .ok m
  else .error (.unsupportedSchema m.schemaVersion)

def toJson (m : StoreMeta) : Json :=
  .object [("schema_version", .string m.schemaVersion), ("tool_version", .string m.toolVersion),
    ("created_at", .ofInt m.createdAt.toNat), ("updated_at", .ofInt m.updatedAt.toNat)]

def print (m : StoreMeta) : List Char := m.toJson.print

def shape : Json.Shape :=
  .struct [("schema_version", true, .text), ("tool_version", true, .text),
    ("created_at", true, .natural), ("updated_at", true, .natural)]

def ofJson? (v : Json) : Option StoreMeta := do
  let schemaVersion ← (← v.member? "schema_version").text?
  let toolVersion ← (← v.member? "tool_version").text?
  let createdAt ← (← v.member? "created_at").uint64?
  let updatedAt ← (← v.member? "updated_at").uint64?
  some ⟨schemaVersion, toolVersion, createdAt, updatedAt⟩

def parse? (s : List Char) : Option StoreMeta := (shape.parse? s).bind ofJson?

end StoreMeta

end RecordSearch

import RecordSearch.Json.Parser
import RecordSearch.Json.Printer
import RecordSearch.Store.Disk

/-!
# Databases as texts

The text that stands for a database when it is kept in a file.
-/

namespace RecordSearch

namespace RecordRow

def toJson (row : RecordRow) : Json :=
  .array [.ofInt row.id, .string row.entity,
    match row.variant with
    | some variant => .string variant
    | none => .null,
    .string (String.ofList row.body)]

def ofJson? : Json → Option RecordRow
  | .array [.number (.integer n), .string entity, variant, .string body] =>
      match variant with
      | .null => some ⟨n.toNat, entity, none, body.toList⟩
      | .string variant => some ⟨n.toNat, entity, some variant, body.toList⟩
      | _ => none
  | _ => none

theorem ofJson?_toJson (row : RecordRow) : ofJson? row.toJson = some row := by
  obtain ⟨id, entity, variant, body⟩ := row
  cases variant <;> simp [toJson, ofJson?, Json.ofInt]

end RecordRow

namespace Database

def toJson (db : Database) : Json :=
  .object [
    ("metadata", .array (db.metadata.map fun (key, value) => .array [.string key, .string value])),
    ("records", .array (db.records.map RecordRow.toJson))]

def ofJson? : Json → Option Database
  | .object [("metadata", .array metadata), ("records", .array records)] => do
      let metadata ← metadata.mapM fun entry =>
        match entry with
        | .array [.string key, .string value] => some (key, value)
        | _ => none
      some ⟨metadata, ← records.mapM RecordRow.ofJson?⟩
  | _ => none

end Database

namespace Entry

/-- What a file with this text holds: a database if the text stands for one. -/
def ofText (content : List Char) : Entry :=
  match (Json.parse? content).bind Database.ofJson? with
  | some db => .database db
  | none => .text content

/-- The text of a file; directories and illegible files have none. -/
def text? : Entry → Option (List Char)
  | .directory | .illegible => none
  | .text content => some content
  | .database db => some db.toJson.print

end Entry

end RecordSearch

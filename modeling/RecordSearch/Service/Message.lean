import RecordSearch.Json.Printer
import RecordSearch.Json.Shape
import RecordSearch.Service.MediaType
import RecordSearch.Store.Basic

/-!
# Messages of the search service

Requests and responses, what their bodies hold, and the text that stands for every refused query.
-/

namespace RecordSearch

/-- What a client is told of a query that does not compile. -/
def invalidSearchExpression : String := "invalid search expression"

namespace SearchRequest

def shape : Json.Shape :=
  .struct [("entity", true, .text), ("query", false, .text), ("or", false, .bool),
    ("store", false, .optional StoreConfig.shape)]

def ofJson? (v : Json) : Option SearchRequest := do
  let entity ← (← v.member? "entity").text?
  let query := ((v.member? "query").bind Json.text?).getD ""
  let byOr := ((v.member? "or").bind Json.bool?).getD false
  some ⟨entity, query, byOr, (v.member? "store").bind StoreConfig.ofJson?⟩

def toJson (r : SearchRequest) : Json :=
  .object ([("entity", .string r.entity), ("query", .string r.query), ("or", .bool r.byOr)] ++
    optionalMember "store" StoreConfig.toJson r.store)

end SearchRequest

/-- The answer to a search: records, or why there are none. -/
structure SearchReply where
  results : List Record
  error : Option String
  deriving DecidableEq, Repr

namespace SearchReply

def found (results : List Record) : SearchReply := ⟨results, none⟩

/-- The same answer for every query that is refused. -/
def refused : SearchReply := ⟨[], some invalidSearchExpression⟩

def toJson (r : SearchReply) : Json :=
  .object [("results", .array (r.results.map Record.toJson)),
    ("error", match r.error with
      | some message => .string message
      | none => .null)]

/-- Reads an answer. The error may be missing. -/
def ofJson? (v : Json) : Option SearchReply := do
  let .object ms := v | none
  let results ← (Fields.ofMembers
    [slot "results" (Decoder.list Record.decode), slot "error" (Decoder.optional Decoder.text)] ms).toOption
  let records ← (results.required "results" (Decoder.list Record.decode)).toOption
  let error ← (results.withDefault "error" (Decoder.optional Decoder.text) none).toOption
  some ⟨records, error⟩

end SearchReply

namespace Service

structure Request where
  method : String
  target : String
  contentType : Option String := none
  body : List Char := []
  deriving Repr

structure Response where
  status : Nat
  body : Option Json := none
  deriving Repr

/-- A body that is an object of the given shape: what it holds, or the status of the refusal. Bodies of more
than 2 MiB, which are refused with the status 413 before they are read, are left out. -/
def readBody (shape : Json.Shape) (r : Request) : Except Nat Json :=
  match r.contentType.bind fun t => MediaType.parse? t.toList with
  | some media =>
      if ¬ media.isJson then .error 415
      else match shape.read r.body with
        | .ok (v, _) => .ok v
        | .error .form => .error 400
        | .error .content => .error 422
  | none => .error 415

end Service

end RecordSearch

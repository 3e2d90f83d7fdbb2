import RecordSearch.Json.Basic
import RecordSearch.Query.Compile

/-!
# Searchable entities

The kinds of records that can be searched, with their descriptors, and the compilation of a query for
one of them.
-/

namespace RecordSearch

inductive Entity where
  | accounts
  | users
  | applications
  | draftApplications
  | submittedApplications
  | referredApplications
  deriving DecidableEq, Repr, Inhabited

namespace Entity

def all : List Entity :=
  [.accounts, .users, .applications, .draftApplications, .submittedApplications,
    .referredApplications]

def name : Entity → String
  | .accounts => "accounts"
  | .users => "users"
  | .applications => "applications"
  | .draftApplications => "draft-applications"
  | .submittedApplications => "submitted-applications"
  | .referredApplications => "referred-applications"

def ofName? (name : String) : Option Entity := all.find? (·.name = name)

def ofName (name : String) : Except SearchError Entity :=
  match ofName? name with
  | some e => .ok e
  | none => .error (.unknownEntity name)

def plainOperators : List String := [":", ":~", "="]

def applicationOperators : List String := [":", ":~", "=", ":=", "<", ">"]

/-- The field of the committee members assigned to an application. -/
def assignedField : String := "assignedCommitteeMembers"

/-- What all entities over the table of applications have in common. The public key `id` is the number
that people see, `dbId` the one that rows are kept under. -/
def applicationDescriptor (name : String) : Descriptor :=
  let bare : Descriptor := {
    name := name
    root := .applications
    grammar := .application
    operators := applicationOperators }
  ((bare.rename "id" "applicationId").rename "dbId" "id").convert "status" Converter.status

def withAssigned (d : Descriptor) : Descriptor :=
  (d.rename "assigned" assignedField).override assignedField .assigned

def descriptor : Entity → Descriptor
  | .accounts => {
      name := "accounts"
      root := .accounts
      grammar := .user
      operators := plainOperators }
  | .users => {
      name := "users"
      root := .users
      grammar := .user
      operators := plainOperators }
  | .applications => applicationDescriptor "applications"
  | .draftApplications => (applicationDescriptor "draft-applications").narrowTo .draft
  | .submittedApplications =>
      withAssigned ((applicationDescriptor "submitted-applications").narrowTo .submitted)
  | .referredApplications =>
      withAssigned ((applicationDescriptor "referred-applications").narrowTo .referred)

def compileWith (registry : Registry) (entity : Entity) (query : String) (byOr : Bool) :
    Except SearchError (Scope × Filter) := do
  let d := entity.descriptor
  let filter ← (Query.build (Query.parse d.grammar query byOr) (fun _ => some d) registry).2
  .ok (d.scope, filter)

def compile (entity : Entity) (query : String) (byOr : Bool) : Except SearchError (Scope × Filter) :=
  compileWith .standard entity query byOr

structure Summary where
  name : String
  scope : String
  operators : List String
  renames : List (String × String)
  converted : List String
  overrides : List String
  deriving DecidableEq, Repr

def summary (entity : Entity) : Summary :=
  let d := entity.descriptor
  { name := entity.name
    scope := d.scope.name
    operators := d.acceptedLiterals
    renames := d.sortedRenames
    converted := d.convertedKeys
    overrides := d.sortedOverrides.map fun (field, literal) => field ++ literal }

def Summary.toJson (s : Summary) : Json :=
  let texts (ts : List String) : Json := .array (ts.map .string)
  .object [
    ("name", .string s.name),
    ("scope", .string s.scope),
    ("operators", texts s.operators),
    ("renames", .array (s.renames.map fun (key, field) => texts [key, field])),
    ("converted", texts s.converted),
    ("overrides", texts s.overrides)]

def catalogue : List Summary := all.map summary

end Entity

end RecordSearch

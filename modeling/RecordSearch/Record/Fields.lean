import RecordSearch.Field.Basic
import RecordSearch.Record.Kind

/-!
# Searchable fields

The table of fields of each kind of record, and the scopes that a search can have. The scope of all
applications offers the fields that every variant has.
-/

namespace RecordSearch

def accountFields : FieldTable :=
  [("username", .text), ("email", .text), ("confirmed", .boolean)]

def roleFields : FieldTable :=
  [("id", .integer), ("name", .text), ("description", .text), ("singleUser", .boolean)]

def userFields : FieldTable :=
  [("username", .text), ("name", .text), ("department", .text), ("account", .object accountFields),
    ("role", .object roleFields)]

def committeeMemberFields : FieldTable :=
  [("id", .integer), ("applicationId", .text), ("user", .object userFields),
    ("finishReview", .boolean)]

/-- The fields of every application, and all fields of a draft. -/
def draftFields : FieldTable :=
  [("id", .integer), ("applicationId", .text), ("user", .object userFields),
    ("status", .enum ApplicationStatus.names), ("templateId", .integer), ("lastUpdated", .timestamp)]

def submittedFields : FieldTable :=
  draftFields ++
    [("assignedCommitteeMembers", .list (.object committeeMemberFields)),
      ("previousCommitteeMembers", .list .text), ("submittedTime", .timestamp),
      ("approvalTime", .timestamp), ("finalComment", .text)]

def referredFields : FieldTable :=
  submittedFields ++ [("editableFields", .list .text), ("referredBy", .object userFields)]

/-- The records that a search ranges over: a table, and of the applications all or one variant. -/
inductive Scope where
  | accounts
  | users
  | applications
  | variant (v : ApplicationVariant)
  deriving DecidableEq, Repr, Inhabited

namespace Scope

def table : Scope → RecordTable
  | .accounts => .account
  | .users => .user
  | .applications | .variant _ => .application

def variant? : Scope → Option ApplicationVariant
  | .variant v => some v
  | _ => none

def ofTable : RecordTable → Scope
  | .account => .accounts
  | .user => .users
  | .application => .applications

/-- A scope of applications restricted to one variant; other scopes stay as they are. -/
def narrow (v : ApplicationVariant) : Scope → Scope
  | .applications | .variant _ => .variant v
  | scope => scope

/-- The name of a scope: the table, and after a slash the variant. -/
def name (scope : Scope) : String :=
  match scope.variant? with
  | some v => s!"{scope.table.name}/{v.name}"
  | none => scope.table.name

/-- The fields that a search in this scope can name. -/
def fields : Scope → FieldTable
  | .accounts => accountFields
  | .users => userFields
  | .applications | .variant .draft => draftFields
  | .variant .submitted => submittedFields
  | .variant .referred => referredFields

def resolve (scope : Scope) (path : List String) : Except FieldError Field :=
  scope.fields.resolve path

end Scope

end RecordSearch

import RecordSearch.Json.Parser
import RecordSearch.Record.Basic
import RecordSearch.Timestamp.Text

/-!
# Reading records

Records from JSON. Members may come in any order and unknown ones are ignored; a known one must not be
repeated. Fields with a default may be missing, and only optional fields may be `null`. Accounts, users
and the parts of an application may also be written as arrays of their fields in order.

Of several faults the first counts: faults of members in the order in which they are written, then
missing fields in the order of their declaration.
-/

namespace RecordSearch

inductive RecordError where
  | invalidTimestamp (raw : String)
  | missingField (name : String)
  | unknownVariant (name : String)
  | duplicateField (name : String)
  /-- A value of another type than expected, or an array of another length. -/
  | unfit
  deriving DecidableEq, Repr, Inhabited

/-- The message of an error that names what it is about. -/
def RecordError.message? : RecordError → Option String
  | .invalidTimestamp raw => some s!"invalid timestamp `{raw}`"
  | .missingField name => some s!"missing field `{name}`"
  | .unknownVariant name => some s!"unknown variant `{name}`"
  | .duplicateField name => some s!"duplicate field `{name}`"
  | .unfit => none

abbrev Decoder (α : Type) := Json → Except RecordError α

namespace Decoder

def text : Decoder String
  | .string s => .ok s
  | _ => .error .unfit

def bool : Decoder Bool
  | .bool b => .ok b
  | _ => .error .unfit

/-- An integer numeral in the range of 64 bits with a sign. -/
def int64 : Decoder Int64
  | .number n =>
      match n.toInt64? with
      | some k => .ok k
      | none => .error .unfit
  | _ => .error .unfit

def timestamp : Decoder Timestamp
  | .string s =>
      match Timestamp.parse? s.toList with
      | some t => .ok t
      | none => .error (.invalidTimestamp s)
  | _ => .error .unfit

def optional {α : Type} (decode : Decoder α) : Decoder (Option α)
  | .null => .ok none
  | v => (decode v).map some

def list {α : Type} (decode : Decoder α) : Decoder (List α)
  | .array xs => xs.mapM decode
  | _ => .error .unfit

/-- The state of an application: its name, or an object with its name as only member, which holds
nothing. -/
def status : Decoder ApplicationStatus
  | .string name => named name
  | .object [(name, v)] => do
      let s ← named name
      match v with
      | .null | .object [] => .ok s
      | _ => .error .unfit
  | _ => .error .unfit
where
  named (name : String) : Except RecordError ApplicationStatus :=
    match ApplicationStatus.ofName? name with
    | some s => .ok s
    | none => .error (.unknownVariant name)

end Decoder

/-- A field of a record with the test that its value must pass. -/
structure Slot where
  name : String
  check : Json → Except RecordError Unit

def slot {α : Type} (name : String) (decode : Decoder α) : Slot := ⟨name, fun v => (decode v).map fun _ => ()⟩

namespace Slot

/-- Checks the members of an object in order: each field of the slots occurs at most once and has a
fitting value. `seen` are the fields met so far. -/
def scan (slots : List Slot) (seen : List String) : List Json.Member → Except RecordError Unit
  | [] => .ok ()
  | (name, v) :: rest =>
      match slots.find? (·.name = name) with
      | none => scan slots seen rest
      | some s =>
          if name ∈ seen then .error (.duplicateField name)
          else do
            s.check v
            scan slots (name :: seen) rest

end Slot

/-- The fields of a value as members. An array gives its elements the names of the slots in order. -/
structure Fields where
  members : List Json.Member
  /-- The error for a field without a value and without a default. -/
  missing : String → RecordError

namespace Fields

/-- The fields of an object or an array, all checked. -/
def ofJson (slots : List Slot) : Json → Except RecordError Fields
  | .object ms => do
      Slot.scan slots [] ms
      .ok ⟨ms, .missingField⟩
  | .array xs => do
      let ms := (slots.map (·.name)).zip xs
      Slot.scan slots [] ms
      if slots.length < xs.length then .error .unfit else .ok ⟨ms, fun _ => .unfit⟩
  | _ => .error .unfit

def ofMembers (slots : List Slot) (ms : List Json.Member) : Except RecordError Fields :=
  ofJson slots (.object ms)

def required {α : Type} (fields : Fields) (name : String) (decode : Decoder α) : Except RecordError α :=
  match fields.members.lookup name with
  | some v => decode v
  | none => .error (fields.missing name)

def withDefault {α : Type} (fields : Fields) (name : String) (decode : Decoder α) (default : α) :
    Except RecordError α :=
  match fields.members.lookup name with
  | some v => decode v
  | none => .ok default

end Fields

namespace Account

def slots : List Slot :=
  [slot "username" Decoder.text, slot "email" Decoder.text, slot "confirmed" Decoder.bool]

def decode : Decoder Account := fun v => do
  let fields ← Fields.ofJson slots v
  let username ← fields.required "username" Decoder.text
  let email ← fields.required "email" Decoder.text
  let confirmed ← fields.withDefault "confirmed" Decoder.bool false
  .ok ⟨username, email, confirmed⟩

end Account

namespace Role

def slots : List Slot :=
  [slot "id" Decoder.int64, slot "name" Decoder.text, slot "description" Decoder.text,
    slot "singleUser" Decoder.bool]

def decode : Decoder Role := fun v => do
  let fields ← Fields.ofJson slots v
  let id ← fields.required "id" Decoder.int64
  let name ← fields.required "name" Decoder.text
  let description ← fields.withDefault "description" Decoder.text ""
  let singleUser ← fields.withDefault "singleUser" Decoder.bool false
  .ok ⟨id, name, description, singleUser⟩

end Role

namespace User

def slots : List Slot :=
  [slot "username" Decoder.text, slot "name" Decoder.text, slot "department" Decoder.text,
    slot "account" (Decoder.optional Account.decode), slot "role" Role.decode]

def decode : Decoder User := fun v => do
  let fields ← Fields.ofJson slots v
  let username ← fields.required "username" Decoder.text
  let name ← fields.required "name" Decoder.text
  let department ← fields.withDefault "department" Decoder.text ""
  let account ← fields.withDefault "account" (Decoder.optional Account.decode) none
  let role ← fields.required "role" Role.decode
  .ok ⟨username, name, department, account, role⟩

end User

namespace CommitteeMember

def slots : List Slot :=
  [slot "id" Decoder.int64, slot "applicationId" Decoder.text, slot "user" User.decode,
    slot "finishReview" Decoder.bool]

def decode : Decoder CommitteeMember := fun v => do
  let fields ← Fields.ofJson slots v
  let id ← fields.required "id" Decoder.int64
  let applicationId ← fields.required "applicationId" Decoder.text
  let user ← fields.required "user" User.decode
  let finishReview ← fields.withDefault "finishReview" Decoder.bool false
  .ok ⟨id, applicationId, user, finishReview⟩

end CommitteeMember

namespace ApplicationCommon

def slots : List Slot :=
  [slot "id" Decoder.int64, slot "applicationId" Decoder.text, slot "user" User.decode,
    slot "status" Decoder.status, slot "templateId" (Decoder.optional Decoder.int64),
    slot "lastUpdated" Decoder.timestamp]

def ofMembers (ms : List Json.Member) : Except RecordError ApplicationCommon := do
  let fields ← Fields.ofMembers slots ms
  let id ← fields.required "id" Decoder.int64
  let applicationId ← fields.required "applicationId" Decoder.text
  let user ← fields.required "user" User.decode
  let status ← fields.required "status" Decoder.status
  let templateId ← fields.withDefault "templateId" (Decoder.optional Decoder.int64) none
  let lastUpdated ← fields.required "lastUpdated" Decoder.timestamp
  .ok ⟨id, applicationId, user, status, templateId, lastUpdated⟩

end ApplicationCommon

namespace Submission

def slots : List Slot :=
  [slot "assignedCommitteeMembers" (Decoder.list CommitteeMember.decode),
    slot "previousCommitteeMembers" (Decoder.list Decoder.text),
    slot "submittedTime" (Decoder.optional Decoder.timestamp),
    slot "approvalTime" (Decoder.optional Decoder.timestamp),
    slot "finalComment" (Decoder.optional Decoder.text)]

def ofMembers (ms : List Json.Member) : Except RecordError Submission := do
  let fields ← Fields.ofMembers slots ms
  let assigned ←
    fields.withDefault "assignedCommitteeMembers" (Decoder.list CommitteeMember.decode) []
  let previous ← fields.withDefault "previousCommitteeMembers" (Decoder.list Decoder.text) []
  let submittedTime ← fields.withDefault "submittedTime" (Decoder.optional Decoder.timestamp) none
  let approvalTime ← fields.withDefault "approvalTime" (Decoder.optional Decoder.timestamp) none
  let finalComment ← fields.withDefault "finalComment" (Decoder.optional Decoder.text) none
  .ok ⟨assigned, previous, submittedTime, approvalTime, finalComment⟩

end Submission

namespace Referral

def slots : List Slot :=
  [slot "editableFields" (Decoder.list Decoder.text),
    slot "referredBy" (Decoder.optional User.decode)]

def ofMembers (ms : List Json.Member) : Except RecordError Referral := do
  let fields ← Fields.ofMembers slots ms
  let editableFields ← fields.withDefault "editableFields" (Decoder.list Decoder.text) []
  let referredBy ← fields.withDefault "referredBy" (Decoder.optional User.decode) none
  .ok ⟨editableFields, referredBy⟩

end Referral

/-! ## Tags -/

/-- Takes the member with the tag out of an object, wherever it stands. -/
def takeTag {α : Type} (tag : String) (decode : Decoder α) :
    Option α → List Json.Member → Except RecordError (Option α × List Json.Member)
  | found, [] => .ok (found, [])
  | found, (name, v) :: rest =>
      if name = tag then
        match found with
        | some _ => .error (.duplicateField tag)
        | none => do
            let a ← decode v
            takeTag tag decode (some a) rest
      else do
        let (found, rest) ← takeTag tag decode found rest
        .ok (found, (name, v) :: rest)

/-- The tag of a value and the value without it: a member of an object or the first element of an
array. -/
def tagged {α : Type} (tag : String) (decode : Decoder α) : Decoder (α × Json)
  | .object ms => do
      match ← takeTag tag decode none ms with
      | (some a, rest) => .ok (a, .object rest)
      | (none, _) => .error (.missingField tag)
  | .array [] => .error (.missingField tag)
  | .array (x :: xs) => do
      let a ← decode x
      .ok (a, .array xs)
  | _ => .error .unfit

def RecordTable.decode : Decoder RecordTable
  | .string name =>
      match RecordTable.ofName? name with
      | some t => .ok t
      | none => .error (.unknownVariant name)
  | _ => .error .unfit

/-- The name of a variant, or its position among the variants. -/
def ApplicationVariant.decode : Decoder ApplicationVariant
  | .string name =>
      match ApplicationVariant.ofName? name with
      | some v => .ok v
      | none => .error (.unknownVariant name)
  | .number (.integer n) =>
      if n < 0 then .error .unfit
      else match ApplicationVariant.all[n.toNat]? with
        | some v => .ok v
        | none => .error .unfit
  | _ => .error .unfit

namespace Application

/-- An application of a known variant. Its fields are those of an object; what a referral adds is read
first, what all variants share last. -/
def ofFields (v : ApplicationVariant) : Decoder Application
  | .object ms =>
      match v with
      | .draft => do
          let common ← ApplicationCommon.ofMembers ms
          .ok (.draft common)
      | .submitted => do
          let submission ← Submission.ofMembers ms
          let common ← ApplicationCommon.ofMembers ms
          .ok (.submitted common submission)
      | .referred => do
          let referral ← Referral.ofMembers ms
          let submission ← Submission.ofMembers ms
          let common ← ApplicationCommon.ofMembers ms
          .ok (.referred common submission referral)
  | _ => .error .unfit

def decode : Decoder Application := fun v => do
  let (variant, fields) ← tagged "variant" ApplicationVariant.decode v
  ofFields variant fields

end Application

/-- Why a line of text is no record. -/
inductive LineError where
  /-- The line is not one JSON value. -/
  | notJson
  | notRecord (error : RecordError)
  deriving DecidableEq, Repr, Inhabited

namespace Record

def decode : Decoder Record := fun v => do
  match ← tagged "entity" RecordTable.decode v with
  | (.account, fields) => (Account.decode fields).map .account
  | (.user, fields) => (User.decode fields).map .user
  | (.application, fields) => (Application.decode fields).map .application

def parse (line : List Char) : Except LineError Record :=
  match Json.parse? line with
  | none => .error .notJson
  | some v => (decode v).mapError .notRecord

end Record

end RecordSearch

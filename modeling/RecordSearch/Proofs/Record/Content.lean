import RecordSearch.Record.Printer
import RecordSearch.Value

/-!
# What records hold

Records as trees of typed values under the public names of their fields: the reading of a record that
its stored form and the tables of fields are compared with. An optional field without a value is there as
`missing`.
-/

namespace RecordSearch

inductive Content where
  | scalar (v : Value)
  | object (fields : List (String × Content))
  | list (elements : List Content)
  /-- An optional field without a value. -/
  | missing

namespace Content

/-- What a path leads to. Nothing is under a missing field. -/
def read : List String → Content → Option Content
  | [], c => some c
  | name :: path, .object fields => (fields.lookup name).bind (read path)
  | _ :: _, _ => none

def optional {α : Type} (content : α → Content) : Option α → Content
  | some a => content a
  | none => .missing

def texts (ts : List String) : Content := .list (ts.map fun s => .scalar (.text s))

end Content

/-! ## The contents of records -/

def Account.contents (a : Account) : List (String × Content) :=
  [("username", .scalar (.text a.username)), ("email", .scalar (.text a.email)),
    ("confirmed", .scalar (.boolean a.confirmed))]

def Role.contents (r : Role) : List (String × Content) :=
  [("id", .scalar (.integer r.id)), ("name", .scalar (.text r.name)),
    ("description", .scalar (.text r.description)), ("singleUser", .scalar (.boolean r.singleUser))]

def User.contents (u : User) : List (String × Content) :=
  [("username", .scalar (.text u.username)), ("name", .scalar (.text u.name)),
    ("department", .scalar (.text u.department)),
    ("account", .optional (fun a => .object a.contents) u.account), ("role", .object u.role.contents)]

def CommitteeMember.contents (m : CommitteeMember) : List (String × Content) :=
  [("id", .scalar (.integer m.id)), ("applicationId", .scalar (.text m.applicationId)),
    ("user", .object m.user.contents), ("finishReview", .scalar (.boolean m.finishReview))]

def ApplicationCommon.contents (a : ApplicationCommon) : List (String × Content) :=
  [("id", .scalar (.integer a.id)), ("applicationId", .scalar (.text a.applicationId)),
    ("user", .object a.user.contents), ("status", .scalar (.enum a.status.name)),
    ("templateId", .optional (fun n => .scalar (.integer n)) a.templateId),
    ("lastUpdated", .scalar (.timestamp a.lastUpdated))]

def Submission.contents (s : Submission) : List (String × Content) :=
  [("assignedCommitteeMembers", .list (s.assignedCommitteeMembers.map fun m => .object m.contents)),
    ("previousCommitteeMembers", .texts s.previousCommitteeMembers),
    ("submittedTime", .optional (fun t => .scalar (.timestamp t)) s.submittedTime),
    ("approvalTime", .optional (fun t => .scalar (.timestamp t)) s.approvalTime),
    ("finalComment", .optional (fun c => .scalar (.text c)) s.finalComment)]

def Referral.contents (r : Referral) : List (String × Content) :=
  [("editableFields", .texts r.editableFields),
    ("referredBy", .optional (fun u => .object u.contents) r.referredBy)]

def Application.contents : Application → List (String × Content)
  | .draft common => common.contents
  | .submitted common submission => common.contents ++ submission.contents
  | .referred common submission referral =>
      common.contents ++ (submission.contents ++ referral.contents)

namespace Record

/-- The names by which stored records are told apart: the table and, of an application, the variant. -/
def tags : Record → List (String × Content)
  | .application a =>
      [("entity", .scalar (.text "application")), ("variant", .scalar (.text a.variant.name))]
  | r => [("entity", .scalar (.text r.table.name))]

/-- The fields of a record under their public names. -/
def contents : Record → List (String × Content)
  | .account a => a.contents
  | .user u => u.contents
  | .application a => a.contents

def content (r : Record) : Content := .object (r.tags ++ r.contents)

end Record

/-! ## Contents as JSON -/

/-- The stored form of a value. -/
def Value.toJson : Value → Json
  | .text s => .string s
  | .integer n => int64Json n
  | .boolean b => .bool b
  | .enum name => .string name
  | .timestamp t => timestampJson t

namespace Content

mutual

/-- The stored form of contents; missing fields have none inside an object. -/
def toJson : Content → Json
  | .scalar v => v.toJson
  | .object fields => .object (membersOf fields)
  | .list elements => .array (elementsOf elements)
  | .missing => .null

def membersOf : List (String × Content) → List Json.Member
  | [] => []
  | (_, .missing) :: rest => membersOf rest
  | (name, c) :: rest => (name, toJson c) :: membersOf rest

def elementsOf : List Content → List Json
  | [] => []
  | c :: rest => toJson c :: elementsOf rest

end

theorem elementsOf_eq_map (cs : List Content) : elementsOf cs = cs.map toJson := by
  induction cs with
  | nil => rfl
  | cons c cs ih => exact congrArg (toJson c :: ·) ih

theorem toJson_scalar (v : Value) : (scalar v).toJson = v.toJson := rfl

theorem toJson_object (fields : List (String × Content)) :
    (object fields).toJson = .object (membersOf fields) := rfl

theorem toJson_list (cs : List Content) : (list cs).toJson = .array (cs.map toJson) :=
  congrArg Json.array (elementsOf_eq_map cs)

variable {name : String} {fields : List (String × Content)}

theorem membersOf_nil : membersOf [] = [] := rfl

theorem membersOf_missing : membersOf ((name, missing) :: fields) = membersOf fields := rfl

theorem membersOf_cons {c : Content} (h : c ≠ .missing) :
    membersOf ((name, c) :: fields) = (name, c.toJson) :: membersOf fields := by
  cases c with
  | missing => exact absurd rfl h
  | _ => rfl

theorem membersOf_append (fields more : List (String × Content)) :
    membersOf (fields ++ more) = membersOf fields ++ membersOf more := by
  induction fields with
  | nil => rfl
  | cons f fields ih =>
      obtain ⟨name, c⟩ := f
      by_cases hc : c = .missing
      · subst hc
        exact ih
      · rw [List.cons_append, membersOf_cons hc, membersOf_cons hc, ih, List.cons_append]

theorem membersOf_optional {α : Type} {content : α → Content} {o : Option α}
    (hm : ∀ a, content a ≠ .missing) :
    membersOf ((name, optional content o) :: fields) =
      optionalMember name (fun a => (content a).toJson) o ++ membersOf fields := by
  cases o with
  | none => rfl
  | some a => exact membersOf_cons (hm a)

end Content

/-! ## Stored records -/

open Content

theorem Account.membersOf_contents (a : Account) : membersOf a.contents = a.members := rfl

theorem Account.toJson_contents (a : Account) : (Content.object a.contents).toJson = a.toJson := rfl

theorem Role.toJson_contents (r : Role) : (Content.object r.contents).toJson = r.toJson := rfl

theorem User.membersOf_contents (u : User) : membersOf u.contents = u.members := by
  rw [contents, members]
  cases u.account <;> rfl

theorem User.toJson_contents (u : User) : (Content.object u.contents).toJson = u.toJson :=
  congrArg Json.object u.membersOf_contents

theorem CommitteeMember.toJson_contents (m : CommitteeMember) :
    (Content.object m.contents).toJson = m.toJson := by
  rw [toJson, ← m.user.toJson_contents]
  rfl

theorem ApplicationCommon.membersOf_contents (a : ApplicationCommon) :
    membersOf a.contents = a.members := by
  simp [contents, members, membersOf_cons, membersOf_nil, membersOf_optional, toJson_scalar, Value.toJson,
    User.toJson_contents]

theorem Submission.membersOf_contents (s : Submission) : membersOf s.contents = s.members := by
  simp [contents, members, membersOf_cons, membersOf_nil, membersOf_optional, toJson_scalar, toJson_list,
    texts, Value.toJson, CommitteeMember.toJson_contents]

theorem Referral.membersOf_contents (r : Referral) : membersOf r.contents = r.members := by
  simp [contents, members, membersOf_cons, membersOf_nil, membersOf_optional, toJson_list, toJson_scalar,
    texts, Value.toJson, User.toJson_contents]

theorem Application.membersOf_contents (a : Application) : membersOf a.contents = a.members := by
  cases a <;>
    simp [contents, members, membersOf_append, ApplicationCommon.membersOf_contents,
      Submission.membersOf_contents, Referral.membersOf_contents]

/-- The stored form of a record is that of its content. -/
theorem Record.toJson_content (r : Record) : r.content.toJson = r.toJson := by
  cases r with
  | account a => rfl
  | user u => exact congrArg (fun ms => Json.object (("entity", .string "user") :: ms)) u.membersOf_contents
  | application a =>
      exact congrArg
        (fun ms =>
          Json.object (("entity", .string "application") :: ("variant", .string a.variant.name) :: ms))
        a.membersOf_contents

end RecordSearch

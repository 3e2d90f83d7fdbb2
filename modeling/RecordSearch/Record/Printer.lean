import RecordSearch.Json.Printer
import RecordSearch.Record.Basic
import RecordSearch.Timestamp.Text

/-!
# Records as JSON

The stored form of a record: an object whose first members name the table and the variant, then its
fields in the order of their declaration. Optional fields without a value are left out; points in time
are written in their canonical form.
-/

namespace RecordSearch

def optionalMember {α : Type} (name : String) (toJson : α → Json) : Option α → List Json.Member
  | some a => [(name, toJson a)]
  | none => []

def int64Json (n : Int64) : Json := .ofInt n.toInt

def timestampJson (t : Timestamp) : Json := .string t.render

namespace Account

def members (a : Account) : List Json.Member :=
  [("username", .string a.username), ("email", .string a.email), ("confirmed", .bool a.confirmed)]

def toJson (a : Account) : Json := .object a.members

end Account

def Role.toJson (r : Role) : Json :=
  .object [("id", int64Json r.id), ("name", .string r.name), ("description", .string r.description),
    ("singleUser", .bool r.singleUser)]

namespace User

def members (u : User) : List Json.Member :=
  [("username", .string u.username), ("name", .string u.name), ("department", .string u.department)] ++
    optionalMember "account" Account.toJson u.account ++ [("role", u.role.toJson)]

def toJson (u : User) : Json := .object u.members

end User

def CommitteeMember.toJson (m : CommitteeMember) : Json :=
  .object [("id", int64Json m.id), ("applicationId", .string m.applicationId), ("user", m.user.toJson),
    ("finishReview", .bool m.finishReview)]

def ApplicationCommon.members (a : ApplicationCommon) : List Json.Member :=
  [("id", int64Json a.id), ("applicationId", .string a.applicationId), ("user", a.user.toJson),
    ("status", .string a.status.name)] ++
    optionalMember "templateId" int64Json a.templateId ++
    [("lastUpdated", timestampJson a.lastUpdated)]

def Submission.members (s : Submission) : List Json.Member :=
  [("assignedCommitteeMembers", .array (s.assignedCommitteeMembers.map CommitteeMember.toJson)),
    ("previousCommitteeMembers", .array (s.previousCommitteeMembers.map .string))] ++
    optionalMember "submittedTime" timestampJson s.submittedTime ++
    optionalMember "approvalTime" timestampJson s.approvalTime ++
    optionalMember "finalComment" .string s.finalComment

def Referral.members (r : Referral) : List Json.Member :=
  ("editableFields", .array (r.editableFields.map .string)) ::
    optionalMember "referredBy" User.toJson r.referredBy

def Application.members : Application → List Json.Member
  | .draft common => common.members
  | .submitted common submission => common.members ++ submission.members
  | .referred common submission referral =>
      common.members ++ submission.members ++ referral.members

namespace Record

def toJson : Record → Json
  | .account a => .object (("entity", .string "account") :: a.members)
  | .user u => .object (("entity", .string "user") :: u.members)
  | .application a =>
      .object (("entity", .string "application") :: ("variant", .string a.variant.name) :: a.members)

def print (r : Record) : List Char := r.toJson.print

end Record

end RecordSearch

import RecordSearch.Record.Fields
import RecordSearch.Timestamp.Basic

/-!
# Records

The records of the three tables. An application has fields that every variant shares; a submitted one
adds its review, a referred one also what its author may change.
-/

namespace RecordSearch

structure Account where
  username : String
  email : String
  confirmed : Bool
  deriving DecidableEq, Repr

structure Role where
  id : Int64
  name : String
  description : String
  /-- Whether only one user at a time may have the role. -/
  singleUser : Bool
  deriving DecidableEq, Repr

structure User where
  username : String
  name : String
  department : String
  account : Option Account
  role : Role
  deriving DecidableEq, Repr

/-- A member of the committee in charge of an application. -/
structure CommitteeMember where
  id : Int64
  applicationId : String
  user : User
  finishReview : Bool
  deriving DecidableEq, Repr

structure ApplicationCommon where
  /-- The number of its row. -/
  id : Int64
  /-- The number that people know it by. -/
  applicationId : String
  user : User
  status : ApplicationStatus
  templateId : Option Int64
  lastUpdated : Timestamp
  deriving DecidableEq, Repr

/-- What an application has once it is submitted. -/
structure Submission where
  assignedCommitteeMembers : List CommitteeMember
  /-- The user names of those who reviewed an earlier submission. -/
  previousCommitteeMembers : List String
  submittedTime : Option Timestamp
  approvalTime : Option Timestamp
  finalComment : Option String
  deriving DecidableEq, Repr

/-- What a referral adds to a submitted application. -/
structure Referral where
  /-- The parts that the author may change. -/
  editableFields : List String
  referredBy : Option User
  deriving DecidableEq, Repr

inductive Application where
  | draft (common : ApplicationCommon)
  | submitted (common : ApplicationCommon) (submission : Submission)
  | referred (common : ApplicationCommon) (submission : Submission) (referral : Referral)
  deriving DecidableEq, Repr

inductive Record where
  | account (a : Account)
  | user (u : User)
  | application (a : Application)
  deriving DecidableEq, Repr

namespace Application

def variant : Application → ApplicationVariant
  | .draft _ => .draft
  | .submitted _ _ => .submitted
  | .referred _ _ _ => .referred

def common : Application → ApplicationCommon
  | .draft common => common
  | .submitted common _ => common
  | .referred common _ _ => common

end Application

namespace Record

def table : Record → RecordTable
  | .account _ => .account
  | .user _ => .user
  | .application _ => .application

def variant? : Record → Option ApplicationVariant
  | .application a => some a.variant
  | _ => none

/-- The name by which people tell records of one table apart. -/
def identifier : Record → String
  | .account a => a.username
  | .user u => u.username
  | .application a => a.common.applicationId

def summary : Record → String
  | .account a => a.email ++ (if a.confirmed then " (confirmed)" else " (unconfirmed)")
  | .user u => u.name ++ " [" ++ u.role.name ++ "]"
  | .application a =>
      a.variant.name ++ " " ++ a.common.status.name ++ " by " ++ a.common.user.username

def inScope (scope : Scope) (r : Record) : Bool :=
  r.table == scope.table &&
    match scope.variant? with
    | some v => r.variant? == some v
    | none => true

end Record

end RecordSearch

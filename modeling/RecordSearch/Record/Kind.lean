/-!
# Kinds of records

The tables that records are kept in, the variants that share the table of applications, and the states
of an application, each with the name it is written by.
-/

namespace RecordSearch

inductive RecordTable where
  | account
  | user
  | application
  deriving DecidableEq, Repr, Inhabited

/-- The shapes of an application, from the first draft to a referral back to its author. -/
inductive ApplicationVariant where
  | draft
  | submitted
  | referred
  deriving DecidableEq, Repr, Inhabited

/-- Where an application stands in its review. -/
inductive ApplicationStatus where
  | draft
  | submitted
  | resubmitted
  | review
  | reviewed
  | referred
  | approved
  | rejected
  deriving DecidableEq, Repr, Inhabited

namespace RecordTable

def all : List RecordTable := [.account, .user, .application]

def name : RecordTable → String
  | .account => "account"
  | .user => "user"
  | .application => "application"

def ofName? (name : String) : Option RecordTable := all.find? (·.name = name)

end RecordTable

namespace ApplicationVariant

def all : List ApplicationVariant := [.draft, .submitted, .referred]

def name : ApplicationVariant → String
  | .draft => "draft"
  | .submitted => "submitted"
  | .referred => "referred"

def ofName? (name : String) : Option ApplicationVariant := all.find? (·.name = name)

end ApplicationVariant

namespace ApplicationStatus

def all : List ApplicationStatus :=
  [.draft, .submitted, .resubmitted, .review, .reviewed, .referred, .approved, .rejected]

def name : ApplicationStatus → String
  | .draft => "DRAFT"
  | .submitted => "SUBMITTED"
  | .resubmitted => "RESUBMITTED"
  | .review => "REVIEW"
  | .reviewed => "REVIEWED"
  | .referred => "REFERRED"
  | .approved => "APPROVED"
  | .rejected => "REJECTED"

def names : List String := all.map name

def ofName? (name : String) : Option ApplicationStatus := all.find? (·.name = name)

end ApplicationStatus

theorem RecordTable.ofName?_name (t : RecordTable) : ofName? t.name = some t := by
  cases t <;> decide

theorem ApplicationVariant.ofName?_name (v : ApplicationVariant) : ofName? v.name = some v := by
  cases v <;> decide

theorem ApplicationStatus.ofName?_name (s : ApplicationStatus) : ofName? s.name = some s := by
  cases s <;> decide

theorem ApplicationStatus.name_mem_names (s : ApplicationStatus) : s.name ∈ names := by
  cases s <;> decide

end RecordSearch

import RecordSearch.Json.Binary64

/-!
# JSON values

The type of JSON values and access to the members of an object. Objects keep their members as written,
in order and with repeated names. A member that holds `null` counts as absent.
-/

namespace RecordSearch

namespace Json

/-- A number: an integer token, or any other numeral as the double it denotes. -/
inductive Number where
  | integer (n : Int)
  | double (x : Binary64)
  deriving DecidableEq, Repr, Inhabited

/-- The number as a 64-bit signed integer, if it was written as an integer in that range. -/
def Number.toInt64? : Number → Option Int64
  | .integer n => if -0x8000000000000000 ≤ n ∧ n < 0x8000000000000000 then some (Int64.ofInt n) else none
  | .double _ => none

/-- The number as a 64-bit unsigned integer, if it was written as an integer in that range. -/
def Number.toUInt64? : Number → Option UInt64
  | .integer n => if 0 ≤ n ∧ n < UInt64.size then some (UInt64.ofNat n.toNat) else none
  | .double _ => none

end Json

inductive Json where
  | null
  | bool (b : Bool)
  | number (n : Json.Number)
  | string (s : String)
  | array (elements : List Json)
  | object (members : List (String × Json))
  deriving Repr, Inhabited

namespace Json

abbrev Member := String × Json

def ofInt (n : Int) : Json := .number (.integer n)

def isNull : Json → Bool
  | .null => true
  | _ => false

def text? : Json → Option String
  | .string s => some s
  | _ => none

def bool? : Json → Option Bool
  | .bool b => some b
  | _ => none

def int64? : Json → Option Int64
  | .number n => n.toInt64?
  | _ => none

def uint64? : Json → Option UInt64
  | .number n => n.toUInt64?
  | _ => none

def elements? : Json → Option (List Json)
  | .array xs => some xs
  | _ => none

/-- The value of the first member of that name that holds one. -/
def findMember (name : String) : List Member → Option Json
  | [] => none
  | (k, v) :: ms => if k = name ∧ ¬ v.isNull then some v else findMember name ms

def member? (name : String) : Json → Option Json
  | .object ms => findMember name ms
  | _ => none

theorem isNull_iff {v : Json} : v.isNull = true ↔ v = .null := by
  cases v <;> simp [isNull]

end Json

end RecordSearch

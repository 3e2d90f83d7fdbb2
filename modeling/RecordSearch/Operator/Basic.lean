import RecordSearch.Dictionary
import RecordSearch.Predicate.Basic
import RecordSearch.Query.Criterion
import RecordSearch.Text.Lowercase
import RecordSearch.Text.Order

/-!
# Operators

What an operator literal means on a field: the filter it makes of the field and a criterion with a converted
value, or the reason why it makes none. Operators are looked up by their literal in a registry.
-/

namespace RecordSearch

/-- Why a criterion cannot be compiled. -/
inductive Cause where
  | field (error : FieldError)
  | value (error : CoercionError)
  /-- The value of a criterion is no member of the enumeration of that name. -/
  | notValid (raw enumeration : String)
  /-- A reason that an operator or a converter gives in its own words. -/
  | stated (message : String)
  deriving Repr, Inhabited

def Cause.message : Cause → String
  | .field error => error.message
  | .value error => error.message
  | .notValid raw enumeration => s!"`{raw}` is not a valid {enumeration}"
  | .stated message => message

structure Operator where
  literal : String
  /-- Applied to the field and the criterion whose value has been converted. It may read all of the criterion,
  its key as it was written included. -/
  operate : Field → Criterion → Except Cause Filter

namespace Operator

/-- The operator that reads nothing of a criterion but its value. -/
def ofValue (literal : String) (make : Field → Value → Except Cause Filter) : Operator :=
  ⟨literal, fun field c => make field c.value⟩

def coerceTo (type : FieldType) (value : Value) : Except Cause Value :=
  (value.coerce type).mapError .value

def equalTo (field : Field) (value : Value) : Except Cause Filter := do
  let value ← coerceTo field.type value
  .ok (.restricted (.equals field value))

/-- The pattern of all texts that contain a given one, if it has no wildcards. -/
def containing (s : List Char) : String := String.ofList ('%' :: (s ++ ['%']))

/-- Texts that contain the value; equality on fields that are not text. -/
def containsText (field : Field) (value : Value) : Except Cause Filter :=
  if field.type.isText then
    .ok (.restricted (.like field (containing value.display.toList) false))
  else equalTo field value

/-- As `containsText`, with text and value in lower case. -/
def containsTextIgnoringCase (field : Field) (value : Value) : Except Cause Filter :=
  if field.type.isText then
    .ok (.restricted (.like field (containing (Text.lowercase value.display.toList)) true))
  else equalTo field value

/-- Texts and lists that contain the value. Fields of other types stay unrestricted. -/
def hasMember (field : Field) (value : Value) : Except Cause Filter :=
  if field.type.isText then containsText field value
  else match field.type.element? with
    | some element => do
        let value ← coerceTo element value
        .ok (.restricted (.includes field value))
    | none => .ok .unrestricted

/-- The point in time that a value gives as a bound, if any. -/
def bound? : Value → Option Timestamp
  | .timestamp t => some t
  | .text raw => Timestamp.parse? raw.toList
  | _ => none

/-- A bound for points in time, made into a predicate by `restrict`; a value that is none leaves the
field unrestricted. On every other field the text of the value is an upper bound for the text of the
field, whichever side was asked for. -/
def bounded (restrict : Field → Value → Predicate) (field : Field) (value : Value) :
    Except Cause Filter :=
  if field.type.isTimestamp then
    match bound? value with
    | some t => .ok (.restricted (restrict field (.timestamp t)))
    | none => .ok .unrestricted
  else .ok (.restricted (.atMost field (.text value.display)))

def equals : Operator := ofValue "=" equalTo

def like : Operator := ofValue ":" containsText

def ignoreCase : Operator := ofValue ":~" containsTextIgnoringCase

def contains : Operator := ofValue ":=" hasMember

def atLeast : Operator := ofValue ">" (bounded .atLeast)

def atMost : Operator := ofValue "<" (bounded .atMost)

/-- Whether one of the committee members assigned has the value as user name. -/
def assigned : Operator :=
  ofValue ":=" fun field value => do
    let member ← (field.elementField ["user", "username"]).mapError .field
    let value ← coerceTo member.type value
    .ok (.restricted (.anyRelated field member value))

end Operator

abbrev Registry := Dictionary String Operator

namespace Registry

/-- The registry with these operators; of two with the same literal the later one counts. -/
def ofList (operators : List Operator) : Registry :=
  operators.foldl (fun registry o => registry.insert o.literal o) {}

def standard : Registry :=
  ofList [.equals, .like, .ignoreCase, .contains, .atLeast, .atMost]

def literals (registry : Registry) : List String := Text.ascending registry.keys

end Registry

end RecordSearch

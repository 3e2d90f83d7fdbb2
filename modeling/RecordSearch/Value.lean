import RecordSearch.Field.Basic
import RecordSearch.Timestamp.Text

/-!
# Values

The values that queries compare fields with. Every value has a text; a text can be turned into a value
of the type that a field demands, and a value that already has that type stays as it is.
-/

namespace RecordSearch

open Text

inductive Value where
  | text (s : String)
  | integer (n : Int64)
  | boolean (b : Bool)
  /-- A member of an enumeration, by name. -/
  | enum (name : String)
  | timestamp (t : Timestamp)
  deriving DecidableEq, Repr, Inhabited

inductive CoercionError where
  | notInteger (raw : String)
  | notBoolean (raw : String)
  | notMember (raw : String) (names : List String)
  | notTimestamp (raw : String)
  /-- The field holds more than one value. -/
  | notScalar (type : FieldType)
  | unfit (value : Value) (type : FieldType)
  deriving Repr, Inhabited

namespace Value

def display : Value → String
  | .text s => s
  | .integer n => String.ofList (Decimal.ofInt n.toInt)
  | .boolean true => "true"
  | .boolean false => "false"
  | .enum name => name
  | .timestamp t => t.render

/-- The value as a field of the given type holds it. Blanks around integers, booleans and points in
time do not count. -/
def coerce (value : Value) (type : FieldType) : Except CoercionError Value :=
  match type, value with
  | .text, v => .ok (.text v.display)
  | .integer, .integer n => .ok (.integer n)
  | .integer, .text raw =>
      match Decimal.int64? (trim raw.toList) with
      | some n => .ok (.integer n)
      | none => .error (.notInteger raw)
  | .boolean, .boolean b => .ok (.boolean b)
  | .boolean, .text raw =>
      if trim raw.toList = "true".toList then .ok (.boolean true)
      else if trim raw.toList = "false".toList then .ok (.boolean false)
      else .error (.notBoolean raw)
  | .enum names, .enum name =>
      if name ∈ names then .ok (.enum name) else .error (.unfit (.enum name) (.enum names))
  | .enum names, .text raw =>
      if raw ∈ names then .ok (.enum raw) else .error (.notMember raw names)
  | .timestamp, .timestamp t => .ok (.timestamp t)
  | .timestamp, .text raw =>
      match Timestamp.parse? raw.toList with
      | some t => .ok (.timestamp t)
      | none => .error (.notTimestamp raw)
  | .object fields, _ => .error (.notScalar (.object fields))
  | .list element, _ => .error (.notScalar (.list element))
  | type, v => .error (.unfit v type)

end Value

def CoercionError.message : CoercionError → String
  | .notInteger raw => s!"`{raw}` is not an integer"
  | .notBoolean raw => s!"`{raw}` is not a boolean"
  | .notMember raw names => s!"`{raw}` is not one of " ++ ", ".intercalate names
  | .notTimestamp raw => s!"`{raw}` is not a date or date-time"
  | .notScalar type => s!"cannot compare a {type.kind} field to a single value"
  | .unfit value type => s!"`{value.display}` does not fit a {type.kind} field"

end RecordSearch

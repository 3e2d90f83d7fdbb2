import RecordSearch.Json.Parser
import RecordSearch.Json.Printer
import RecordSearch.Text.Lowercase
import RecordSearch.Text.Order
import RecordSearch.Text.Segments

/-!
# A fragment of SQL

Conditions over the rows of a table whose bodies are JSON texts: comparison of values of mixed types,
patterns, the functions on JSON, `EXISTS` over the elements of a JSON array, and three-valued logic.
Parameters are bound to placeholders in the order in which these are written.
-/

namespace RecordSearch.Sql

open Text

inductive Value where
  | null
  | integer (n : Int64)
  | real (x : Json.Binary64)
  | text (s : List Char)
  deriving DecidableEq, Repr, Inhabited

inductive Column where
  | entity
  | variant
  | body
  deriving DecidableEq, Repr

inductive Comparison where
  | equal
  | atLeast
  | atMost
  deriving DecidableEq, Repr

/-- Expressions for a single value. -/
inductive Term where
  | placeholder
  | literal (v : Value)
  | column (c : Column)
  /-- The value of the element that an enclosing `existsEach` ranges over. -/
  | element
  /-- `json_extract`. -/
  | jsonExtract (document path : Term)
  /-- `json_type`. -/
  | jsonType (document path : Term)
  /-- `CAST … AS TEXT`. -/
  | castText (a : Term)
  /-- Lower case of a text; defined on texts and on the null value only. -/
  | lower (a : Term)
  deriving DecidableEq, Repr

/-- Expressions for a truth value. -/
inductive Condition where
  | compare (op : Comparison) (a b : Term)
  | like (a pattern : Term)
  | notIn (a : Term) (texts : List String)
  /-- `EXISTS (SELECT 1 FROM json_each(document, path) WHERE condition)`. -/
  | existsEach (document path : Term) (condition : Condition)
  | and (a b : Condition)
  | or (a b : Condition)
  deriving DecidableEq, Repr

/-- The statement fails: a text is not JSON, a path has another form than `$.a.b`, or a function is
applied to a value that it is not defined on. -/
inductive Error where
  | malformedJson
  | malformedPath
  | wrongType
  deriving DecidableEq, Repr

structure Row where
  entity : Value
  variant : Value
  body : Value
  deriving DecidableEq, Repr

/-! ## Parameters -/

/-- Fills in the placeholders of a term; also gives the parameters left over. A placeholder without a
parameter is null. -/
def Term.bind : Term → List Value → Term × List Value
  | .placeholder, [] => (.literal .null, [])
  | .placeholder, p :: ps => (.literal p, ps)
  | .literal v, ps => (.literal v, ps)
  | .column c, ps => (.column c, ps)
  | .element, ps => (.element, ps)
  | .jsonExtract d p, ps =>
      let (d, ps) := d.bind ps
      let (p, ps) := p.bind ps
      (.jsonExtract d p, ps)
  | .jsonType d p, ps =>
      let (d, ps) := d.bind ps
      let (p, ps) := p.bind ps
      (.jsonType d p, ps)
  | .castText a, ps =>
      let (a, ps) := a.bind ps
      (.castText a, ps)
  | .lower a, ps =>
      let (a, ps) := a.bind ps
      (.lower a, ps)

def Condition.bind : Condition → List Value → Condition × List Value
  | .compare op a b, ps =>
      let (a, ps) := a.bind ps
      let (b, ps) := b.bind ps
      (.compare op a b, ps)
  | .like a p, ps =>
      let (a, ps) := a.bind ps
      let (p, ps) := p.bind ps
      (.like a p, ps)
  | .notIn a texts, ps =>
      let (a, ps) := a.bind ps
      (.notIn a texts, ps)
  | .existsEach d p c, ps =>
      let (d, ps) := d.bind ps
      let (p, ps) := p.bind ps
      let (c, ps) := c.bind ps
      (.existsEach d p c, ps)
  | .and a b, ps =>
      let (a, ps) := a.bind ps
      let (b, ps) := b.bind ps
      (.and a b, ps)
  | .or a b, ps =>
      let (a, ps) := a.bind ps
      let (b, ps) := b.bind ps
      (.or a b, ps)

/-! ## Values -/

/-- A JSON value as a value of SQL: booleans are 1 and 0, arrays and objects their text. -/
def Value.ofJson : Json → Value
  | .null => .null
  | .bool true => .integer 1
  | .bool false => .integer 0
  | .number (.double x) => .real x
  | .number (.integer n) =>
      if -0x8000000000000000 ≤ n ∧ n < 0x8000000000000000 then .integer (Int64.ofInt n)
      else match Json.Binary64.ofRatio (n < 0) n.natAbs 1 with
        | some x => .real x
        | none => .null
  | .string s => .text s.toList
  | .array xs => .text (Json.array xs).print
  | .object ms => .text (Json.object ms).print

def Value.text? : Value → Option (List Char)
  | .null => none
  | .integer n => some (Decimal.ofInt n.toInt)
  | .real x => some x.print
  | .text s => some s

/-- The order of two numbers `a / b` and `c / d`. -/
def orderRatios (a : Int) (b : Nat) (c : Int) (d : Nat) : Ordering :=
  compareOfLessAndEq (a * d) (c * b)

/-- A number as an integer over a natural. -/
def ratio : Value → Int × Nat
  | .integer n => (n.toInt, 1)
  | .real x =>
      let (n, d) := Json.Binary64.scaled x.mantissa 1 x.exponent
      (if x.negative then -n else n, d)
  | _ => (0, 1)

/-- The order of two values that are not null: numbers by size, before all texts. -/
def Value.order? : Value → Value → Option Ordering
  | .null, _ | _, .null => none
  | .text s, .text t => some (Text.order s t)
  | .text _, _ => some .gt
  | _, .text _ => some .lt
  | a, b => some (orderRatios (ratio a).1 (ratio a).2 (ratio b).1 (ratio b).2)

def Comparison.holds : Comparison → Ordering → Bool
  | .equal, o => o == .eq
  | .atLeast, o => o != .lt
  | .atMost, o => o != .gt

/-- Whether a test holds of the text or of one of the texts that end it. -/
def anySuffix (test : List Char → Bool) : List Char → Bool
  | [] => test []
  | c :: s => test (c :: s) || anySuffix test s

/-- Whether a text matches a pattern as a whole: `%` stands for any run of characters, `_` for one
character, every other character for itself. This is `LIKE` as documented: that it reads U+FFFE and U+FFFF
as U+FFFD, and refuses patterns of more than 50000 bytes, is left out. -/
def matchesPattern : List Char → List Char → Bool
  | [], text => text.isEmpty
  | '%' :: pattern, text => anySuffix (matchesPattern pattern) text
  | c :: pattern, text =>
      match text with
      | [] => false
      | d :: text => (c = '_' ∨ c = d) && matchesPattern pattern text

/-- The text up to its first null character: there a pattern ends, and a text matched with one. -/
def untilNull (s : List Char) : List Char := s.takeWhile (· ≠ '\x00')

/-! ## JSON functions -/

/-- The keys of a path of the form `$.a.b`. -/
def pathKeys? : List Char → Option (List String)
  | ['$'] => some []
  | '$' :: '.' :: rest => some ((segments '.' rest).map String.ofList)
  | _ => none

def memberOf (key : String) : Json → Option Json
  | .object ms => ms.lookup key
  | _ => none

/-- The value that keys lead to, object by object. -/
def descend : List String → Json → Option Json
  | [], v => some v
  | key :: keys, v => (memberOf key v).bind (descend keys)

/-- The part of a JSON document at a path. A null document has no parts. -/
def locate (document path : Value) : Except Error (Option Json) :=
  match document.text?, path.text? with
  | none, _ | _, none => .ok none
  | some document, some path =>
      match Json.parse? document with
      | none => .error .malformedJson
      | some doc =>
          match pathKeys? path with
          | none => .error .malformedPath
          | some keys => .ok (descend keys doc)

def typeName : Json → String
  | .null => "null"
  | .bool true => "true"
  | .bool false => "false"
  | .number (.integer _) => "integer"
  | .number (.double _) => "real"
  | .string _ => "text"
  | .array _ => "array"
  | .object _ => "object"

/-- The values that `json_each` ranges over: the elements of an array, the members of an object, or the
value itself. -/
def each : Json → List Json
  | .array xs => xs
  | .object ms => ms.map (·.2)
  | v => [v]

/-! ## Evaluation -/

/-- The value of a term in a row, inside a range over the given element. -/
def Term.eval (row : Row) (element : Value) : Term → Except Error Value
  | .placeholder => .ok .null
  | .literal v => .ok v
  | .column .entity => .ok row.entity
  | .column .variant => .ok row.variant
  | .column .body => .ok row.body
  | .element => .ok element
  | .jsonExtract d p => do
      let found ← locate (← d.eval row element) (← p.eval row element)
      .ok ((found.map Value.ofJson).getD .null)
  | .jsonType d p => do
      let found ← locate (← d.eval row element) (← p.eval row element)
      .ok ((found.map fun v => Value.text (typeName v).toList).getD .null)
  | .castText a => do
      let v ← a.eval row element
      .ok ((v.text?.map .text).getD .null)
  | .lower a => do
      match ← a.eval row element with
      | .null => .ok .null
      | .text s => .ok (.text (lowercase s))
      | _ => .error .wrongType

/-- Conjunction of truth values, of which `none` is the unknown one. The second is needed only if the
first is true, since unknown and false select no row alike. -/
def conjunction (a : Option Bool) (b : Except Error (Option Bool)) : Except Error (Option Bool) :=
  match a with
  | some true => b
  | some false => .ok (some false)
  | none => .ok none

/-- Disjunction of truth values. The second is needed unless the first is true. -/
def disjunction (a : Option Bool) (b : Except Error (Option Bool)) : Except Error (Option Bool) :=
  match a with
  | some true => .ok (some true)
  | some false => b
  | none => b.map fun
      | some true => some true
      | _ => none

def anyHolds (holds : Value → Except Error (Option Bool)) : List Json → Except Error Bool
  | [] => .ok false
  | x :: xs => do
      if (← holds (Value.ofJson x)) = some true then .ok true else anyHolds holds xs

/-- The truth value of a condition in a row. -/
def Condition.eval (row : Row) (element : Value) : Condition → Except Error (Option Bool)
  | .compare op a b => do
      let a ← a.eval row element
      let b ← b.eval row element
      .ok ((a.order? b).map op.holds)
  | .like a p => do
      let a ← a.eval row element
      let p ← p.eval row element
      match a.text?, p.text? with
      | some text, some pattern => .ok (some (matchesPattern (untilNull pattern) (untilNull text)))
      | _, _ => .ok none
  | .notIn a texts => do
      match ← a.eval row element with
      | .null => .ok none
      | .text s => .ok (some (¬ texts.contains (String.ofList s)))
      | _ => .ok (some true)
  | .existsEach d p c => do
      match ← locate (← d.eval row element) (← p.eval row element) with
      | none => .ok (some false)
      | some v =>
          let found ← anyHolds (fun x => c.eval row x) (each v)
          .ok (some found)
  | .and a b => do
      let x ← a.eval row element
      conjunction x (b.eval row element)
  | .or a b => do
      let x ← a.eval row element
      disjunction x (b.eval row element)

def Condition.selects (c : Condition) (parameters : List Value) (row : Row) : Except Error Bool := do
  let truth ← (c.bind parameters).1.eval row .null
  .ok (truth == some true)

end RecordSearch.Sql

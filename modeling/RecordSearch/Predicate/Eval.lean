import RecordSearch.Json.Printer
import RecordSearch.Predicate.Basic
import RecordSearch.Predicate.Like
import RecordSearch.Text.Lowercase
import RecordSearch.Text.Order

/-!
# Predicates on documents

The meaning of a predicate on a JSON document. A field that is absent, or `null`, satisfies no test.
Texts are compared by code point; numbers and booleans have the texts by which they are compared with
values that are neither integers nor points in time.
-/

namespace RecordSearch

open Text

namespace Json

/-- The value that a path leads to, object by object; `null` is no value. -/
def lookup : List String → Json → Option Json
  | [], doc => if doc.isNull then none else some doc
  | name :: path, doc => (doc.member? name).bind (lookup path)

/-- The text of a string, a number or a boolean for comparison; booleans are `1` and `0`. -/
def scalarText? : Json → Option (List Char)
  | .string s => some s.toList
  | .number n => some n.print
  | .bool true => some ['1']
  | .bool false => some ['0']
  | .null | .array _ | .object _ => none

end Json

namespace Value

def isStoredAs (value : Value) (found : Json) : Bool :=
  match value with
  | .text s => found.text? == some s
  | .enum name => found.text? == some name
  | .integer n => found.int64? == some n
  | .boolean b => found.bool? == some b
  | .timestamp t => found.text? == some t.render

def orderOf? (value : Value) (found : Json) : Option Ordering :=
  match value with
  | .timestamp t => found.text?.map fun s => Text.order s.toList t.print
  | .integer n => found.int64?.map fun m => compare m.toInt n.toInt
  | v => found.scalarText?.map fun s => Text.order s v.display.toList

end Value

def matchesPattern (pattern : String) (ignoreCase : Bool) (text : String) : Bool :=
  like (if ignoreCase then lowercase text.toList else text.toList) pattern.toList

namespace Predicate

def eval (doc : Json) : Predicate → Bool
  | .equals field value => (doc.lookup field.path).any value.isStoredAs
  | .like field pattern ignoreCase =>
      ((doc.lookup field.path).bind Json.text?).any (matchesPattern pattern ignoreCase)
  | .atLeast field value => ((doc.lookup field.path).bind value.orderOf?).any (· != .lt)
  | .atMost field value => ((doc.lookup field.path).bind value.orderOf?).any (· != .gt)
  | .includes field value =>
      ((doc.lookup field.path).bind Json.elements?).any (·.any value.isStoredAs)
  | .anyRelated collection member value =>
      ((doc.lookup collection.path).bind Json.elements?).any
        (·.any fun item => (item.lookup member.path).any value.isStoredAs)
  | .and left right => eval doc left && eval doc right
  | .or left right => eval doc left || eval doc right

end Predicate

def Filter.accepts (doc : Json) : Filter → Bool
  | .unrestricted => true
  | .restricted p => p.eval doc

end RecordSearch

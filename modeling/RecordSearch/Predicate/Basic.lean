import RecordSearch.Value

/-!
# Predicates

Tests on one record, independent of how records are stored, and the filters that criteria compile to.
A filter without a predicate accepts every record: it is neutral in a conjunction and absorbs the other
side of a disjunction.
-/

namespace RecordSearch

inductive Predicate where
  | equals (field : Field) (value : Value)
  /-- The text matches a pattern with wildcards; with `ignoreCase` the text is lower-cased first. -/
  | like (field : Field) (pattern : String) (ignoreCase : Bool)
  | atLeast (field : Field) (value : Value)
  | atMost (field : Field) (value : Value)
  /-- The list has an element that equals the value. -/
  | includes (field : Field) (value : Value)
  /-- The collection has an element whose field `member` equals the value. -/
  | anyRelated (collection member : Field) (value : Value)
  | and (left right : Predicate)
  | or (left right : Predicate)
  deriving Repr, Inhabited

inductive Filter where
  | unrestricted
  | restricted (p : Predicate)
  deriving Repr, Inhabited

namespace Filter

def and : Filter → Filter → Filter
  | .unrestricted, f => f
  | f, .unrestricted => f
  | .restricted p, .restricted q => .restricted (.and p q)

def or : Filter → Filter → Filter
  | .restricted p, .restricted q => .restricted (.or p q)
  | _, _ => .unrestricted

end Filter

end RecordSearch

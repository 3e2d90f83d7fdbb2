import RecordSearch.Value

/-!
# Criteria

One condition of a query, as it was written or with its value already converted.
-/

namespace RecordSearch

structure Criterion where
  key : String
  operator : String
  value : Value
  /-- Whether the condition joins those before it by "or" instead of "and". -/
  orWithPrevious : Bool
  deriving DecidableEq, Repr, Inhabited

end RecordSearch

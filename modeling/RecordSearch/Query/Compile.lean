import RecordSearch.Descriptor

/-!
# Compilation of queries

A criterion is compiled for a descriptor in four stages: its key is mapped and its value converted, an
operator that the descriptor does not take drops the criterion, the field is looked up, and the operator
is applied. A list of criteria is folded from the left, each joined to those before it by "and" or "or".
-/

namespace RecordSearch

inductive SearchError where
  /-- Neither the overrides nor the registry know the literal. -/
  | unknownOperator (literal : String)
  /-- A criterion, given by its own key and operator, does not compile. -/
  | criterion (key operator : String) (cause : Cause)
  | unknownEntity (name : String)
  deriving Repr, Inhabited

def SearchError.message : SearchError → String
  | .unknownOperator literal => s!"unknown search operator `{literal}`"
  | .criterion key operator _ => s!"failed to compile criterion `{key}{operator}`"
  | .unknownEntity name => s!"unknown search entity `{name}`"

def Criterion.compile (c : Criterion) (d : Descriptor) (registry : Registry) :
    Except SearchError Filter := do
  let mapped := d.mappedKey c.key
  let value ← (d.convertValue mapped c.value).mapError (.criterion c.key c.operator)
  if ¬ d.supports c.operator then .ok .unrestricted
  else
    let field ← (d.scope.resolve (d.pathOf mapped)).mapError
      fun e => .criterion c.key c.operator (.field e)
    match d.operatorFor? mapped c.operator registry with
    | none => .error (.unknownOperator c.operator)
    | some operator => (operator.operate field { c with value }).mapError (.criterion c.key c.operator)

namespace Query

/-- Joins the filter of a criterion to the filter of those before it; the first stands alone. -/
def joined (running : Option Filter) (f : Filter) (byOr : Bool) : Filter :=
  match running with
  | none => f
  | some g => if byOr then g.or f else g.and f

/-- Folds criteria onto the filter so far. `descriptors` may fail to give a descriptor for a criterion,
which is then left out; `asked` counts how often it was asked. -/
def buildFrom (descriptors : Nat → Option Descriptor) (registry : Registry) :
    Nat → Option Filter → List Criterion → Nat × Except SearchError Filter
  | asked, running, [] => (asked, .ok (running.getD .unrestricted))
  | asked, running, c :: rest =>
      match descriptors asked with
      | none => buildFrom descriptors registry (asked + 1) running rest
      | some d =>
          match c.compile d registry with
          | .error e => (asked + 1, .error e)
          | .ok f =>
              buildFrom descriptors registry (asked + 1) (some (joined running f c.orWithPrevious)) rest

/-- The filter of a list of criteria, and how many descriptors were asked for to build it. -/
def build (criteria : List Criterion) (descriptors : Nat → Option Descriptor) (registry : Registry) :
    Nat × Except SearchError Filter :=
  buildFrom descriptors registry 0 none criteria

end Query

end RecordSearch

import RecordSearch.Predicate.Basic
import RecordSearch.Record.Fields
import RecordSearch.Store.Database.Basic
import RecordSearch.Store.Sql

/-!
# Searches as statements

The statement that finds the records of a scope which a filter accepts: a condition on rows with
placeholders, and the parameters for them in order.
-/

namespace RecordSearch

open Sql

/-- A condition with the parameters for its placeholders. -/
structure Clause where
  condition : Condition
  parameters : List Sql.Value
  deriving Repr

/-- A value as a parameter; booleans are 1 and 0. -/
def Value.parameter : Value → Sql.Value
  | .text s => .text s.toList
  | .integer n => .integer n
  | .boolean b => .integer (if b then 1 else 0)
  | .enum name => .text name.toList
  | .timestamp t => .text t.print

namespace Clause

def path (f : Field) : Sql.Value := .text ("$." ++ dotted f.path).toList

/-- The part of the body at the path that the next parameter gives. -/
def extracted : Term := .jsonExtract (.column .body) .placeholder

/-- A bound on a field. Integers and points in time are compared with the stored value, everything else
with its text, which arrays and objects do not have. -/
def bound (op : Comparison) (field : Field) (value : Value) : Clause :=
  match value with
  | .timestamp _ | .integer _ =>
      ⟨.compare op extracted .placeholder, [path field, value.parameter]⟩
  | _ =>
      ⟨.and (.notIn (.jsonType (.column .body) .placeholder) ["object", "array"])
          (.compare op (.castText extracted) .placeholder),
        [path field, path field, .text value.display.toList]⟩

def ofPredicate : Predicate → Clause
  | .equals field value =>
      ⟨.compare .equal extracted .placeholder, [path field, value.parameter]⟩
  | .like field pattern ignoreCase =>
      ⟨.like (if ignoreCase then .lower extracted else extracted) .placeholder,
        [path field, .text pattern.toList]⟩
  | .atLeast field value => bound .atLeast field value
  | .atMost field value => bound .atMost field value
  | .includes field value =>
      ⟨.existsEach (.column .body) .placeholder (.compare .equal .element .placeholder),
        [path field, value.parameter]⟩
  | .anyRelated collection member value =>
      ⟨.existsEach (.column .body) .placeholder
          (.compare .equal (.jsonExtract .element .placeholder) .placeholder),
        [path collection, path member, value.parameter]⟩
  | .and left right =>
      let l := ofPredicate left
      let r := ofPredicate right
      ⟨.and l.condition r.condition, l.parameters ++ r.parameters⟩
  | .or left right =>
      let l := ofPredicate left
      let r := ofPredicate right
      ⟨.or l.condition r.condition, l.parameters ++ r.parameters⟩

def and (a b : Clause) : Clause := ⟨.and a.condition b.condition, a.parameters ++ b.parameters⟩

def columnEquals (c : Column) (s : String) : Clause :=
  ⟨.compare .equal (.column c) .placeholder, [.text s.toList]⟩

/-- The clause of a search: the table, the variant if the scope has one, and the filter. -/
def ofSearch (scope : Scope) (filter : Filter) : Clause :=
  let table := columnEquals .entity scope.table.name
  let rows := match scope.variant? with
    | some v => table.and (columnEquals .variant v.name)
    | none => table
  match filter with
  | .unrestricted => rows
  | .restricted p => rows.and (ofPredicate p)

end Clause

def RecordRow.view (row : RecordRow) : Row :=
  ⟨.text row.entity.toList,
    match row.variant with
    | some v => .text v.toList
    | none => .null,
    .text row.body⟩

def Database.select (db : Database) (clause : Clause) : Except Sql.Error (List RecordRow) :=
  go db.records
where
  go : List RecordRow → Except Sql.Error (List RecordRow)
    | [] => .ok []
    | row :: rest => do
        let selected ← clause.condition.selects clause.parameters row.view
        let others ← go rest
        .ok (if selected then row :: others else others)

end RecordSearch

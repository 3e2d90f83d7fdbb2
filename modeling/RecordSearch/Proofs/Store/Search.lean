import RecordSearch.Proofs.Store.Clause
import RecordSearch.Store.Database.Store

/-!
# Searches on rows

On rows that hold records the statement of a search selects those whose records are in scope and
accepted, and these records are read back from the rows.
-/

namespace RecordSearch

open Text

theorem RecordTable.name_inj {t u : RecordTable} : t.name = u.name ↔ t = u := by
  constructor
  · intro h
    have hname := congrArg RecordTable.ofName? h
    rwa [ofName?_name, ofName?_name, Option.some.injEq] at hname
  · exact congrArg name

theorem ApplicationVariant.name_inj {v w : ApplicationVariant} : v.name = w.name ↔ v = w := by
  constructor
  · intro h
    have hname := congrArg ApplicationVariant.ofName? h
    rwa [ofName?_name, ofName?_name, Option.some.injEq] at hname
  · exact congrArg name

/-- The row is that of the record. -/
structure RecordRow.Holds (row : RecordRow) (r : Record) : Prop where
  entity : row.entity = r.table.name
  variant : row.variant = r.variant?.map (·.name)
  body : row.body = r.print

/-- A false first part settles a conjunction, whatever the second is. -/
theorem Sql.Condition.Decides.and_of_false {a b : Condition} {row : Row} {element : Value}
    (ha : a.Decides row element false) : (Condition.and a b).Decides row element false := by
  obtain ⟨ta, hta, hf⟩ := ha
  simp only [Decides, Condition.eval, hta, ok_bind]
  rcases ta with _ | _ | _
  · exact ⟨none, rfl, rfl⟩
  · exact ⟨some false, rfl, rfl⟩
  · cases hf

namespace Clause

variable {row : RecordRow} {r : Record} {scope : Scope} {filter : Filter}

theorem entity_decides (h : row.Holds r) (table : RecordTable) :
    (columnEquals .entity table.name).filled.Decides row.view .null (r.table == table) := by
  refine ⟨some (Sql.Comparison.equal.holds (order row.entity.toList table.name.toList)), rfl, ?_⟩
  rw [h.entity, Bool.eq_iff_iff]
  simp [Sql.Comparison.holds, order_eq_eq_iff, String.toList_inj, RecordTable.name_inj]

theorem variant_decides (h : row.Holds r) (v : ApplicationVariant) :
    (columnEquals .variant v.name).filled.Decides row.view .null (r.variant? == some v) := by
  change Sql.Condition.Decides (.compare .equal (.column .variant) (.literal (.text v.name.toList)))
    row.view .null _
  simp only [Sql.Condition.Decides, Sql.Condition.eval, Sql.Term.eval, RecordRow.view, h.variant]
  cases r.variant? with
  | none => exact ⟨none, rfl, rfl⟩
  | some w =>
      refine ⟨some (Sql.Comparison.equal.holds (order w.name.toList v.name.toList)), rfl, ?_⟩
      rw [Bool.eq_iff_iff]
      simp [Sql.Comparison.holds, order_eq_eq_iff, String.toList_inj, ApplicationVariant.name_inj]

/-- The part of the clause of a search that is about its scope. -/
def ofScope (scope : Scope) : Clause :=
  match scope.variant? with
  | some v => (columnEquals .entity scope.table.name).and (columnEquals .variant v.name)
  | none => columnEquals .entity scope.table.name

theorem ofScope_exact (scope : Scope) : (ofScope scope).Exact := by
  unfold ofScope
  split
  · exact ((columnEquals_exact _ _).and (columnEquals_exact _ _)).1
  · exact columnEquals_exact _ _

theorem ofScope_decides (h : row.Holds r) (scope : Scope) :
    (ofScope scope).filled.Decides row.view .null (r.inScope scope) := by
  unfold ofScope Record.inScope
  cases scope.variant? with
  | none =>
      rw [Bool.and_true]
      exact entity_decides h _
  | some v =>
      rw [((columnEquals_exact _ _).and (columnEquals_exact _ _)).2]
      exact (entity_decides h _).and (variant_decides h v)

theorem ofSearch_exact (scope : Scope) (filter : Filter) : (ofSearch scope filter).Exact := by
  cases filter with
  | unrestricted => exact ofScope_exact scope
  | restricted p => exact ((ofScope_exact scope).and (ofPredicate_exact p)).1

/-- The clause of a search selects the row of a record in scope that the filter accepts. -/
theorem ofSearch_decides (h : row.Holds r) (hf : filter.WellTyped scope) :
    (ofSearch scope filter).filled.Decides row.view .null
      (r.inScope scope && filter.acceptsBy matchesUntilNull r.toJson) := by
  cases filter with
  | unrestricted =>
      rw [Filter.acceptsBy, Bool.and_true]
      exact ofScope_decides h scope
  | restricted p =>
      have hand := (ofScope_exact scope).and (ofPredicate_exact p)
      change ((ofScope scope).and (ofPredicate p)).filled.Decides _ _ _
      rw [hand.2]
      have hscope := ofScope_decides h scope
      cases hr : r.inScope scope with
      | true =>
          rw [hr] at hscope
          have hbody : row.view.body = .text r.print := by rw [RecordRow.view, h.body]
          exact hscope.and (ofPredicate_decides hbody hr hf)
      | false =>
          rw [hr] at hscope
          exact hscope.and_of_false

theorem ofSearch_selects (h : row.Holds r) (hf : filter.WellTyped scope) :
    (ofSearch scope filter).condition.selects (ofSearch scope filter).parameters row.view =
      .ok (r.inScope scope && filter.acceptsBy matchesUntilNull r.toJson) := by
  obtain ⟨truth, ht, hb⟩ := ofSearch_decides h hf
  have hbind := ofSearch_exact scope filter []
  rw [List.append_nil] at hbind
  rw [Sql.Condition.selects, hbind, ht, ok_bind, hb]

end Clause

/-! ## Lists of rows -/

def RecordRow.AllHold : List RecordRow → List Record → Prop
  | [], [] => True
  | row :: rows, r :: rs => row.Holds r ∧ AllHold rows rs
  | _, _ => False

namespace RecordRow

variable {rows more : List RecordRow} {rs ss : List Record}

theorem AllHold.append (h : AllHold rows rs) (hm : AllHold more ss) : AllHold (rows ++ more) (rs ++ ss) := by
  fun_induction AllHold rows rs with
  | case1 => exact hm
  | case2 row rows r rs ih => exact ⟨h.1, ih h.2⟩
  | case3 => exact h.elim

theorem AllHold.select {scope : Scope} {filter : Filter} (h : AllHold rows rs)
    (hf : filter.WellTyped scope) :
    ∃ selected, Database.select.go (Clause.ofSearch scope filter) rows = .ok selected ∧
      AllHold selected
        (rs.filter fun r => r.inScope scope && filter.acceptsBy matchesUntilNull r.toJson) := by
  fun_induction AllHold rows rs with
  | case1 => exact ⟨[], rfl, trivial⟩
  | case2 row rows r rs ih =>
      obtain ⟨selected, hs, hall⟩ := ih h.2
      rw [Database.select.go, Clause.ofSearch_selects h.1 hf, ok_bind, hs, ok_bind]
      cases hr : r.inScope scope && filter.acceptsBy matchesUntilNull r.toJson with
      | true =>
          rw [List.filter_cons, if_pos hr]
          exact ⟨row :: selected, rfl, h.1, hall⟩
      | false =>
          rw [List.filter_cons, hr]
          exact ⟨selected, rfl, hall⟩
  | case3 => exact h.elim

theorem AllHold.recordsOfRows (h : AllHold rows rs) : DatabaseStore.recordsOfRows rows = .ok rs := by
  fun_induction AllHold rows rs with
  | case1 => rfl
  | case2 row rows r rs ih =>
      rw [DatabaseStore.recordsOfRows, h.1.body, Record.parse_print]
      simp only [ih h.2, Except.map]
  | case3 => exact h.elim

theorem recordsOfRows_append (rows more : List RecordRow) :
    DatabaseStore.recordsOfRows (rows ++ more) =
      DatabaseStore.recordsOfRows rows >>= fun rs => (DatabaseStore.recordsOfRows more).map (rs ++ ·) := by
  induction rows with
  | nil =>
      rw [List.nil_append, DatabaseStore.recordsOfRows, ok_bind]
      cases DatabaseStore.recordsOfRows more <;> rfl
  | cons row rows ih =>
      rw [List.cons_append, DatabaseStore.recordsOfRows, DatabaseStore.recordsOfRows, ih]
      cases Record.parse row.body with
      | error _ => rfl
      | ok r =>
          dsimp only
          cases DatabaseStore.recordsOfRows rows with
          | error _ => rfl
          | ok rs => cases DatabaseStore.recordsOfRows more <;> rfl

end RecordRow

end RecordSearch

import RecordSearch.Proofs.Query.Printing
import RecordSearch.Proofs.Query.Typing
import RecordSearch.Proofs.Record.Shape
import RecordSearch.Proofs.Timestamp.Order

/-!
# Bounds on points in time

A bound on a field that holds a point in time accepts a record as that point and the bound are in order,
save that of two different years before the year nought the later one comes first.
-/

namespace RecordSearch

open Text

/-! ## Readable bounds -/

namespace Timestamp

variable {s rest : List Char}

theorem mem_trimStart {c : Char} (h : c ∈ s) (hc : isBlank c = false) : c ∈ trimStart s := by
  rw [← List.takeWhile_append_dropWhile (p := isBlank) (l := s), List.mem_append] at h
  rcases h with h | h
  · have hblank := List.all_eq_true.mp List.all_takeWhile c h
    rw [hc] at hblank
    cases hblank
  · exact h

theorem mem_trim {c : Char} (h : c ∈ s) (hc : isBlank c = false) : c ∈ trim s := by
  rw [trim, trimEnd, List.mem_reverse]
  exact mem_trimStart (List.mem_reverse.mpr (mem_trimStart h hc)) hc

theorem comma_mem_twoDigits? {n : Nat} (h : twoDigits? s = some (n, rest)) (hc : ',' ∈ s) : ',' ∈ rest := by
  unfold twoDigits? at h
  split at h
  · next a b r =>
    split at h
    · next hd =>
      cases h
      simp only [List.mem_cons] at hc
      rcases hc with rfl | rfl | hc
      · cases hd.1
      · cases hd.2
      · exact hc
    · cases h
  · cases h

theorem comma_mem_year? {y : Int} (h : year? s = some (y, rest)) (hc : ',' ∈ s) : ',' ∈ rest := by
  unfold year? at h
  split at h
  next negative digits heq =>
    have hdigits : ',' ∈ digits := by
      split at heq
      · cases heq
        simpa using hc
      · cases heq
        simpa using hc
      · cases heq
        exact hc
    simp only [Option.bind_eq_bind, Option.bind_eq_some_iff] at h
    obtain ⟨⟨_, s₁⟩, h₁, ⟨_, s₂⟩, h₂, h⟩ := h
    cases h
    exact comma_mem_twoDigits? h₂ (comma_mem_twoDigits? h₁ hdigits)

theorem comma_mem_date? {d : Date} (h : date? s = some (d, rest)) (hc : ',' ∈ s) : ',' ∈ rest := by
  unfold date? at h
  simp only [Option.bind_eq_bind, Option.bind_eq_some_iff] at h
  obtain ⟨⟨_, s₁⟩, h₁, h⟩ := h
  have hc := comma_mem_year? h₁ hc
  dsimp only at h
  split at h
  · next s₂ =>
    simp only [Option.bind_eq_some_iff] at h
    obtain ⟨⟨_, s₃⟩, h₃, h⟩ := h
    have hc := comma_mem_twoDigits? h₃ (by simpa using hc)
    dsimp only at h
    split at h
    · next s₄ =>
      simp only [Option.bind_eq_some_iff] at h
      obtain ⟨⟨_, s₅⟩, h₅, _, _, h⟩ := h
      cases h
      exact comma_mem_twoDigits? h₅ (by simpa using hc)
    · cases h
  · cases h

theorem comma_not_mem_nanosecond? {n : Nat} (h : nanosecond? s = some n) : ',' ∉ s := by
  unfold nanosecond? at h
  split at h
  · next hd =>
    intro hc
    cases List.all_eq_true.mp hd.2 _ hc
  · cases h

theorem comma_not_mem_seconds? {n m : Nat} (h : seconds? s = some (n, m)) : ',' ∉ s := by
  intro hc
  unfold seconds? at h
  split at h
  · cases hc
  · next s₁ =>
    simp only [Option.bind_eq_bind, Option.bind_eq_some_iff] at h
    obtain ⟨⟨_, s₂⟩, h₂, h⟩ := h
    have hc := comma_mem_twoDigits? h₂ (by simpa using hc)
    dsimp only at h
    split at h
    · cases hc
    · next s₃ =>
      obtain ⟨k, hk, _⟩ := Option.map_eq_some_iff.mp h
      exact comma_not_mem_nanosecond? hk (by simpa using hc)
    · cases h
  · cases h

theorem comma_not_mem_timeOn? {d : Date} {t : Timestamp} (h : timeOn? d s = some t) : ',' ∉ s := by
  intro hc
  unfold timeOn? at h
  split at h
  · cases hc
  · next s₁ =>
    simp only [Option.bind_eq_bind, Option.bind_eq_some_iff] at h
    obtain ⟨⟨_, s₂⟩, h₂, h⟩ := h
    have hc := comma_mem_twoDigits? h₂ (by simpa using hc)
    dsimp only at h
    split at h
    · next s₃ =>
      simp only [Option.bind_eq_some_iff] at h
      obtain ⟨⟨_, s₄⟩, h₄, ⟨_, _⟩, h₅, _⟩ := h
      exact comma_not_mem_seconds? h₅ (comma_mem_twoDigits? h₄ (by simpa using hc))
    · cases h
  · cases h

theorem comma_not_mem_parse? {t : Timestamp} (h : parse? s = some t) : ',' ∉ s := by
  intro hc
  simp only [parse?, Option.bind_eq_bind, Option.bind_eq_some_iff] at h
  obtain ⟨⟨d, rest⟩, hd, ht⟩ := h
  exact comma_not_mem_timeOn? ht (comma_mem_date? hd (mem_trim hc rfl))

end Timestamp

/-! ## Criteria -/

namespace Entity

/-- The kinds of records that are applications. -/
def IsApplication (entity : Entity) : Prop := entity.descriptor.root = .applications

theorem IsApplication.cases {entity : Entity} (h : entity.IsApplication) :
    entity = .applications ∨ entity = .draftApplications ∨ entity = .submittedApplications ∨
      entity = .referredApplications := by
  unfold IsApplication at h
  cases entity with
  | accounts => cases h
  | users => cases h
  | _ => simp

variable {entity : Entity} {key literal raw : String} {field : Field} {bound : Timestamp}

theorem ne_status (ha : entity.IsApplication) {mapped : String}
    (hf : entity.descriptor.scope.resolve (entity.descriptor.pathOf mapped) = .ok field)
    (ht : field.type = .timestamp) : mapped ≠ "status" := by
  rintro rfl
  rcases ha.cases with rfl | rfl | rfl | rfl <;> cases hf <;> cases ht

theorem supports_bound (ha : entity.IsApplication) (hs : literal = "<" ∨ literal = ">") :
    entity.descriptor.supports literal = true := by
  rcases ha.cases with rfl | rfl | rfl | rfl <;> rcases hs with rfl | rfl <;> decide

theorem compile_bounded {restrict : Field → Value → Predicate} {value converted : Value} {f : Filter}
    (ha : entity.IsApplication)
    (hs : literal = "<" ∧ restrict = .atMost ∨ literal = ">" ∧ restrict = .atLeast)
    (hf : entity.descriptor.scope.resolve
      (entity.descriptor.pathOf (entity.descriptor.mappedKey key)) = .ok field)
    (hc : entity.descriptor.convertValue (entity.descriptor.mappedKey key) value = .ok converted)
    (ho : Operator.bounded restrict field converted = .ok f) (orWithPrevious : Bool) :
    Criterion.compile ⟨key, literal, value, orWithPrevious⟩ entity.descriptor .standard = .ok f := by
  have hsign : literal = "<" ∨ literal = ">" := hs.imp And.left And.left
  have hregistered : Registry.standard.get? literal = some (.ofValue literal (Operator.bounded restrict)) := by
    rcases hs with ⟨rfl, rfl⟩ | ⟨rfl, rfl⟩ <;> rfl
  have hliteral : literal ≠ ":=" := by
    rcases hsign with rfl | rfl <;> decide
  exact (compile_registered_iff (supports_bound ha hsign) (entity.overrides_eq_none _ hliteral) hregistered).mpr
    ⟨converted, field, hc, hf, ho⟩

theorem compile_bound {restrict : Field → Value → Predicate} (ha : entity.IsApplication)
    (hs : literal = "<" ∧ restrict = .atMost ∨ literal = ">" ∧ restrict = .atLeast)
    (hf : entity.descriptor.scope.resolve
      (entity.descriptor.pathOf (entity.descriptor.mappedKey key)) = .ok field)
    (ht : field.type = .timestamp) (hb : Timestamp.parse? raw.toList = some bound) (orWithPrevious : Bool) :
    Criterion.compile ⟨key, literal, .text raw, orWithPrevious⟩ entity.descriptor .standard =
      .ok (.restricted (restrict field (.timestamp bound))) := by
  refine compile_bounded ha hs hf (entity.convertValue_eq (ne_status ha hf ht) _) ?_ orWithPrevious
  rw [Operator.bounded, ht]
  simp [FieldType.isTimestamp, Operator.bound?, hb]

/-- The query that consists of one bound compiles as that criterion does. -/
theorem compile_query_bound {filter : Filter} (ha : entity.IsApplication)
    (hs : literal = "<" ∨ literal = ">") (hk : key ≠ "") (hkey : ∀ c ∈ key.toList, Query.isKeyChar c = true)
    (hb : Timestamp.parse? raw.toList = some bound) (hl : '\n' ∉ raw.toList) {byOr : Bool}
    (hc : Criterion.compile ⟨key, literal, .text raw, byOr⟩ entity.descriptor .standard = .ok filter) :
    entity.compile (key ++ literal ++ raw) byOr = .ok (entity.descriptor.scope, filter) := by
  have hgrammar : entity.descriptor.grammar = .application := by
    rcases ha.cases with rfl | rfl | rfl | rfl <;> rfl
  have hne : raw ≠ "" := by
    rintro rfl
    cases hb
  have hoperator : literal.toList ∈ Grammar.application.operators ∧ literal.toList ≠ [':'] := by
    rcases hs with rfl | rfl <;> decide
  refine (compile_single_iff ?_ byOr).mpr hc
  rw [hgrammar]
  exact ⟨by simpa using hk, hkey, hoperator.1, by simpa using hne, Timestamp.comma_not_mem_parse? hb, hl,
    fun h => absurd h hoperator.2, fun _ h => absurd h hoperator.2⟩

end Entity

/-! ## Records -/

namespace Record

variable {r : Record} {scope : Scope} {path : List String} {field : Field}

/-- In a field for points in time a record holds one, which is stored in its canonical form, or nothing. -/
theorem timestamp_cases (hr : r.inScope scope = true) (hf : scope.resolve path = .ok field)
    (ht : field.type = .timestamp) :
    (∃ t : Timestamp, r.content.read field.path = some (.scalar (.timestamp t)) ∧
      Json.lookup field.path r.toJson = some (.string t.render)) ∨
    (Json.lookup field.path r.toJson = none ∧ ∀ v, r.content.read field.path ≠ some (.scalar v)) := by
  rcases found_of_resolve hr hf with ⟨c, hc, htyped, hl, _⟩ | ⟨hn, _, hlacks⟩
  · rw [ht] at htyped
    cases htyped with
    | @scalar v _ hv =>
        cases v with
        | timestamp t => exact .inl ⟨t, hc, hl⟩
        | _ => cases hv
  · exact .inr ⟨hn, hlacks.read_ne⟩

end Record

namespace Filter

variable {doc : Json} {field : Field} {t bound : Timestamp}

theorem accepts_atLeast (h : Json.lookup field.path doc = some (.string t.render)) :
    (Filter.restricted (.atLeast field (.timestamp bound))).accepts doc = true ↔
      if Timestamp.Reversed t bound then t.instant ≤ bound.instant else bound.instant ≤ t.instant := by
  have haccepts : (Filter.restricted (.atLeast field (.timestamp bound))).accepts doc =
      (order t.print bound.print != .lt) := by
    simp [accepts, Predicate.eval, h, Value.orderOf?, Json.text?, Timestamp.render]
  rw [haccepts, Timestamp.order_print, bne_iff_ne]
  split
  · exact Int.compare_ne_lt.trans Iff.rfl
  · exact Int.compare_ne_lt

theorem accepts_atMost (h : Json.lookup field.path doc = some (.string t.render)) :
    (Filter.restricted (.atMost field (.timestamp bound))).accepts doc = true ↔
      if Timestamp.Reversed t bound then bound.instant ≤ t.instant else t.instant ≤ bound.instant := by
  have haccepts : (Filter.restricted (.atMost field (.timestamp bound))).accepts doc =
      (order t.print bound.print != .gt) := by
    simp [accepts, Predicate.eval, h, Value.orderOf?, Json.text?, Timestamp.render]
  rw [haccepts, Timestamp.order_print, bne_iff_ne]
  split
  · exact Int.compare_ne_gt
  · exact Int.compare_ne_gt

end Filter

/-- For every kind of application and every key of a point in time, the bounds `key>raw` and `key<raw` with a
readable point in time compile, as criteria and as queries of their own, and accept a record of the scope that
has a value there just if it is not before, or not after, the bound. When both lie before the year nought, in
different years, it is the other way round. -/
theorem Entity.bounds_chronological {entity : Entity} {key raw : String} {field : Field}
    {bound : Timestamp} {r : Record} (ha : entity.IsApplication)
    (hf : entity.descriptor.scope.resolve
      (entity.descriptor.pathOf (entity.descriptor.mappedKey key)) = .ok field)
    (ht : field.type = .timestamp) (hb : Timestamp.parse? raw.toList = some bound)
    (hr : r.inScope entity.descriptor.scope = true)
    (hp : (Json.lookup field.path r.toJson).isSome) :
    ∃ (t : Timestamp) (lower upper : Filter),
      r.content.read field.path = some (.scalar (.timestamp t)) ∧
      (∀ byOr, Criterion.compile ⟨key, ">", .text raw, byOr⟩ entity.descriptor .standard = .ok lower ∧
        Criterion.compile ⟨key, "<", .text raw, byOr⟩ entity.descriptor .standard = .ok upper) ∧
      (key ≠ "" → (∀ c ∈ key.toList, Query.isKeyChar c = true) → '\n' ∉ raw.toList → ∀ byOr,
        entity.compile (key ++ ">" ++ raw) byOr = .ok (entity.descriptor.scope, lower) ∧
          entity.compile (key ++ "<" ++ raw) byOr = .ok (entity.descriptor.scope, upper)) ∧
      (lower.accepts r.toJson = true ↔
        if t.Reversed bound then t.instant ≤ bound.instant else bound.instant ≤ t.instant) ∧
      (upper.accepts r.toJson = true ↔
        if t.Reversed bound then bound.instant ≤ t.instant else t.instant ≤ bound.instant) := by
  obtain ⟨t, hread, hlookup⟩ | ⟨hlookup, _⟩ := Record.timestamp_cases hr hf ht
  case inr =>
    rw [hlookup] at hp
    cases hp
  have hlower := Entity.compile_bound ha (.inr ⟨rfl, rfl⟩) hf ht hb
  have hupper := Entity.compile_bound ha (.inl ⟨rfl, rfl⟩) hf ht hb
  refine ⟨t, _, _, hread, fun byOr => ⟨hlower byOr, hupper byOr⟩, fun hk hkey hl byOr => ⟨?_, ?_⟩,
    Filter.accepts_atLeast hlookup, Filter.accepts_atMost hlookup⟩
  · exact Entity.compile_query_bound ha (.inr rfl) hk hkey hb hl (hlower byOr)
  · exact Entity.compile_query_bound ha (.inl rfl) hk hkey hb hl (hupper byOr)

/-- A draft that was last changed at the given point in time. -/
def draftOf (t : Timestamp) : Record :=
  .application (.draft ⟨1, "A-1", ⟨"al", "Al", "", none, ⟨7, "member", "", false⟩⟩, .draft, none, t⟩)

theorem isKeyChar_lastUpdated : ∀ c ∈ "lastUpdated".toList, Query.isKeyChar c = true :=
  List.all_eq_true.mp (by decide)

theorem lookup_draftOf (t : Timestamp) :
    Json.lookup ["lastUpdated"] (draftOf t).toJson = some (.string t.render) := rfl

theorem resolve_lastUpdated :
    let d := Entity.draftApplications.descriptor
    d.scope.resolve (d.pathOf (d.mappedKey "lastUpdated")) = .ok ⟨["lastUpdated"], .timestamp⟩ := rfl

/-- A draft changed at noon lies after the start of that day. -/
theorem Entity.bounds_chronological_draft :
    let noon : Timestamp := { date := { year := 2024, month := 3, day := 15 }
                              hour := 12, minute := 0, second := 0, nanosecond := 0 }
    ∃ lower upper : Filter,
      draftApplications.compile "lastUpdated>2024-03-15" false = .ok (.variant .draft, lower) ∧
      draftApplications.compile "lastUpdated<2024-03-15" false = .ok (.variant .draft, upper) ∧
      lower.accepts (draftOf noon).toJson = true ∧ upper.accepts (draftOf noon).toJson = false := by
  intro noon
  let day : Date := { year := 2024, month := 3, day := 15 }
  have hb : Timestamp.parse? "2024-03-15".toList = some (.midnight day) := by decide
  have hp : (Json.lookup ["lastUpdated"] (draftOf noon).toJson).isSome := by
    rw [lookup_draftOf]
    rfl
  obtain ⟨t, lower, upper, hread, _, hcompile, hlower, hupper⟩ :=
    @bounds_chronological .draftApplications "lastUpdated" _ _ _ (draftOf noon) rfl resolve_lastUpdated rfl hb
      rfl hp
  cases hread
  obtain ⟨hlow, hup⟩ := hcompile (by decide) isKeyChar_lastUpdated (by decide) false
  have hnot : ¬ noon.instant ≤ (Timestamp.midnight day).instant := by decide
  refine ⟨lower, upper, hlow, hup, hlower.mpr (by decide), Bool.eq_false_iff.mpr fun h => hnot ?_⟩
  exact hupper.mp h

/-- A point in time in the year before that of an upper bound is not found. -/
theorem Entity.bound_misses_earlier_year :
    let ides : Timestamp := { date := { year := -44, month := 3, day := 15 }
                              hour := 12, minute := 0, second := 0, nanosecond := 0 }
    let bound : Timestamp := .midnight { year := -43, month := 1, day := 1 }
    ∃ upper : Filter,
      draftApplications.compile "lastUpdated<-0043-01-01" false = .ok (.variant .draft, upper) ∧
      Timestamp.parse? "-0043-01-01".toList = some bound ∧ ides.instant < bound.instant ∧
      upper.accepts (draftOf ides).toJson = false := by
  intro ides bound
  have hb : Timestamp.parse? "-0043-01-01".toList = some bound := by decide
  have ha : draftApplications.IsApplication := rfl
  have hupper : Criterion.compile ⟨"lastUpdated", "<", _, false⟩ draftApplications.descriptor .standard = _ :=
    compile_bound ha (.inl ⟨rfl, rfl⟩) resolve_lastUpdated rfl hb false
  have hcompile := compile_query_bound ha (.inl rfl) (by decide) isKeyChar_lastUpdated hb (by decide) hupper
  have hnot : ¬ bound.instant ≤ ides.instant := by decide
  refine ⟨_, hcompile, hb, by decide, Bool.eq_false_iff.mpr fun h => hnot ?_⟩
  have haccepts := (Filter.accepts_atMost (lookup_draftOf ides)).mp h
  rwa [if_pos (by decide)] at haccepts

end RecordSearch

import Mathlib
import RecordSearch.Proofs.Predicate.Typing
import RecordSearch.Proofs.Query.Compile

/-!
# Compiled queries are typed

Every test in the filter of a query is on a field of the scope of the search and fits the type of that
field.
-/

namespace RecordSearch

variable {d : Descriptor} {registry : Registry}

/-- All operators that a criterion can get make typed filters in the scope of the descriptor: those of
the registry on every field, an override on the field that it is for. -/
structure Descriptor.OperatorsTyped (d : Descriptor) (registry : Registry) : Prop where
  registered {literal : String} {o : Operator} (h : registry.get? literal = some o) :
    o.TypedOn d.scope fun _ => True
  overridden {key literal : String} {o : Operator} (h : d.overrides.get? (key, literal) = some o) :
    o.TypedOn d.scope (·.path = d.pathOf key)

theorem Descriptor.OperatorsTyped.compile {c : Criterion} {f : Filter} (hd : d.OperatorsTyped registry)
    (h : c.compile d registry = .ok f) : f.WellTyped d.scope := by
  obtain ⟨value, _, ⟨_, rfl⟩ | ⟨_, field, o, hf, ho, hop⟩⟩ := Criterion.compile_eq_ok_iff.mp h
  · trivial
  · have hp : field.path = d.pathOf (d.mappedKey c.key) := FieldTable.path_of_resolve hf
    have hdecl : d.scope.Declares field := by rwa [Scope.Declares, hp]
    rcases Option.or_eq_some_iff.mp ho with ho | ⟨_, ho⟩
    · exact hd.overridden ho hdecl hp hop
    · exact hd.registered ho hdecl trivial hop

theorem Descriptor.OperatorsTyped.build {criteria : List Criterion} {f : Filter}
    (hd : d.OperatorsTyped registry)
    (h : (Query.build criteria (fun _ => some d) registry).2 = .ok f) : f.WellTyped d.scope := by
  refine Query.buildFrom_induction (P := Filter.WellTyped d.scope) trivial Filter.WellTyped.and
    Filter.WellTyped.or (fun c _ n d' g hd' hg => ?_) (fun g hg => ?_) h
  · cases hd'; exact hd.compile hg
  · cases hg

/-- The only override of the search kinds is the one for assigned members. -/
theorem Entity.override_eq {entity : Entity} {key literal : String} {o : Operator}
    (h : entity.descriptor.overrides.get? (key, literal) = some o) :
    key = assignedField ∧ literal = ":=" ∧ o = .assigned := by
  cases entity <;>
    simp [descriptor, applicationDescriptor, withAssigned, Descriptor.override, Descriptor.rename,
      Descriptor.convert, Descriptor.narrowTo, Dictionary.get?, Dictionary.insert, List.lookup_cons] at h
  all_goals
    split at h
    · next e =>
      cases h
      cases eq_of_beq e
      exact ⟨rfl, rfl, rfl⟩
    · cases h

/-- The only values that are converted are those for the status of an application. -/
theorem Entity.convertValue_eq (entity : Entity) {mapped : String} (h : mapped ≠ "status") (value : Value) :
    entity.descriptor.convertValue mapped value = .ok value := by
  have hmapped : (mapped == "status") = false := beq_eq_false_iff_ne.mpr h
  cases entity <;>
    simp [descriptor, applicationDescriptor, withAssigned, Descriptor.convertValue, Descriptor.override,
      Descriptor.rename, Descriptor.convert, Descriptor.narrowTo, Dictionary.get?, Dictionary.insert,
      List.lookup_cons, hmapped]

theorem Entity.overrides_eq_none (entity : Entity) (key : String) {literal : String} (h : literal ≠ ":=") :
    entity.descriptor.overrides.get? (key, literal) = none := by
  rw [Option.eq_none_iff_forall_ne_some]
  intro o ho
  exact h (override_eq ho).2.1

/-- Where there is no override an operator is that of the registry. -/
theorem Entity.compile_registered_iff {entity : Entity} {key literal : String} {value : Value} {byOr : Bool}
    {f : Filter} {o : Operator} (hs : entity.descriptor.supports literal = true)
    (hl : entity.descriptor.overrides.get? (entity.descriptor.mappedKey key, literal) = none)
    (ho : Registry.standard.get? literal = some o) :
    Criterion.compile ⟨key, literal, value, byOr⟩ entity.descriptor .standard = .ok f ↔
      ∃ converted field,
        entity.descriptor.convertValue (entity.descriptor.mappedKey key) value = .ok converted ∧
        entity.descriptor.scope.resolve
          (entity.descriptor.pathOf (entity.descriptor.mappedKey key)) = .ok field ∧
        o.operate field ⟨key, literal, converted, byOr⟩ = .ok f := by
  have hoperator : entity.descriptor.operatorFor? (entity.descriptor.mappedKey key) literal .standard =
      some o := by
    rw [Descriptor.operatorFor?, hl, ho, Option.none_or]
  rw [Criterion.compile_eq_ok_iff]
  simp only [hs, hoperator, Option.some.injEq, reduceCtorEq, false_and, false_or, true_and]
  refine exists_congr fun converted => ⟨?_, ?_⟩
  · rintro ⟨hconvert, field, _, hfield, rfl, hoperate⟩
    exact ⟨field, hconvert, hfield, hoperate⟩
  · rintro ⟨field, hconvert, hfield, hoperate⟩
    exact ⟨hconvert, field, o, hfield, rfl, hoperate⟩

theorem Descriptor.pathOf_assignedField : d.pathOf Entity.assignedField = assignedPath := by
  rfl

theorem Entity.operatorsTyped (entity : Entity) : entity.descriptor.OperatorsTyped .standard where
  registered := Registry.standard_typedOn
  overridden h := by
    obtain ⟨rfl, rfl, rfl⟩ := override_eq h
    rw [Descriptor.pathOf_assignedField]
    exact Operator.assigned_typedOn

/-- Every test of a compiled query is on a field of the scope of the search and fits its type. -/
theorem Entity.compile_wellTyped {entity : Entity} {query : String} {byOr : Bool} {scope : Scope}
    {filter : Filter} (h : entity.compile query byOr = .ok (scope, filter)) :
    filter.WellTyped scope := by
  obtain ⟨hs, hf⟩ := compile_eq_ok_iff.mp h
  subst hs
  exact entity.operatorsTyped.build hf

theorem Entity.compile_wellTyped_threeCriteria :
    ∃ filter, submittedApplications.compile "assigned:=al,status:REVIEW,lastUpdated>2024-01-01" true =
        .ok (.variant .submitted, .restricted filter) ∧
      Filter.WellTyped (.variant .submitted) (.restricted filter) := by
  have hp : Query.parse .application "assigned:=al,status:REVIEW,lastUpdated>2024-01-01" true =
      [⟨"assigned", ":=", .text "al", true⟩, ⟨"status", ":", .text "REVIEW", true⟩,
        ⟨"lastUpdated", ">", .text "2024-01-01", true⟩] := by cbv
  have hc : submittedApplications.compile "assigned:=al,status:REVIEW,lastUpdated>2024-01-01" true =
      .ok (.variant .submitted, .restricted
        (.or
          (.or
            (.anyRelated ⟨assignedPath, .list (.object committeeMemberFields)⟩ memberName (.text "al"))
            (.equals ⟨["status"], .enum ApplicationStatus.names⟩ (.enum "REVIEW")))
          (.atLeast ⟨["lastUpdated"], .timestamp⟩ (.timestamp (.midnight ⟨2024, 1, 1, by decide,
            by decide, by decide⟩))))) :=
    compile_of_parse hp rfl
  exact ⟨_, hc, compile_wellTyped hc⟩

end RecordSearch

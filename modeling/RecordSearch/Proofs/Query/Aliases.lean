import RecordSearch.Proofs.Query.Renaming
import RecordSearch.Proofs.Query.Typing

/-!
# Aliases

Two keys that lead to the same field are aliases. The conversion of the value and the operator are looked up by
what the whole key stands for. This is one name for all keys of a field, unless the field lies inside another
and a segment of the name is a key itself: then the names differ, and what is kept for one of them is not
found by the other. An operator may also read the key of the criterion; the operators of the searches do not.
-/

namespace RecordSearch

variable {d : Descriptor} {registry : Registry} {c : Criterion} {name other : String} {field : Field}

/-- The error, naming a criterion by another key. -/
def SearchError.named (key : String) : SearchError → SearchError
  | .criterion _ operator cause => .criterion key operator cause
  | e => e

theorem one_lt_length_writtenPath (h : '.' ∈ name.toList) : 1 < (writtenPath name).length := by
  rw [writtenPath, List.length_map]
  have hjoined := Text.join_segments '.' name.toList
  cases hsegments : Text.segments '.' name.toList with
  | nil => exact absurd hsegments (Text.segments_ne_nil _ _)
  | cons segment rest =>
      cases rest with
      | nil =>
          -- A single segment is the whole name, and has no dot.
          rw [hsegments, Text.join] at hjoined
          rw [← hjoined] at h
          exact absurd h (Text.not_mem_of_mem_segments (hsegments ▸ List.mem_singleton_self segment))
      | cons next rest => simp

namespace Descriptor

theorem settled_of_not_mem (h : '.' ∉ name.toList) : d.Settled name := fun hdot => absurd hdot h

theorem one_lt_length_pathOf (h : '.' ∈ name.toList) : 1 < (d.pathOf name).length := by
  rw [pathOf_of_dotted h, List.length_map]
  exact one_lt_length_writtenPath h

/-- Different names with the same path both have dots, and a segment of one of them is a key. -/
theorem dotted_of_pathOf_eq (h : d.pathOf name = d.pathOf other) (hne : name ≠ other) :
    '.' ∈ name.toList ∧ '.' ∈ other.toList ∧ ¬ (d.Settled name ∧ d.Settled other) := by
  have hsettled : ¬ (d.Settled name ∧ d.Settled other) := by
    rintro ⟨hname, hother⟩
    rw [pathOf_eq_writtenPath_iff.mpr hname, pathOf_eq_writtenPath_iff.mpr hother] at h
    exact hne (writtenPath_inj h)
  by_cases hname : '.' ∈ name.toList
  · refine ⟨hname, ?_, hsettled⟩
    by_contra hother
    have hlong := one_lt_length_pathOf (d := d) hname
    rw [h, pathOf_of_not_mem hother] at hlong
    exact absurd hlong (by simp)
  · by_cases hother : '.' ∈ other.toList
    · have hlong := one_lt_length_pathOf (d := d) hother
      rw [← h, pathOf_of_not_mem hname] at hlong
      exact absurd hlong (by simp)
    · exact absurd ⟨settled_of_not_mem hname, settled_of_not_mem hother⟩ hsettled

/-- The value of the criterion converts alike under both names, and its operator is the same. -/
def TreatsAlike (d : Descriptor) (registry : Registry) (c : Criterion) (name other : String) : Prop :=
  d.convertValue name c.value = d.convertValue other c.value ∧
    d.operatorFor? name c.operator registry = d.operatorFor? other c.operator registry

theorem treatsAlike_self : d.TreatsAlike registry c name name := ⟨rfl, rfl⟩

/-- The kinds of records that can be searched convert values and override operators on fields without a dot in
their names alone. -/
theorem treatsAlike_of_dotted {entity : Entity} (hname : '.' ∈ name.toList) (hother : '.' ∈ other.toList) :
    entity.descriptor.TreatsAlike registry c name other := by
  have hstatus : ∀ name : String, '.' ∈ name.toList → name ≠ "status" := by
    rintro _ hdot rfl
    revert hdot
    decide
  have hnone : ∀ name : String, '.' ∈ name.toList →
      entity.descriptor.overrides.get? (name, c.operator) = none := by
    intro name hdot
    rw [Option.eq_none_iff_forall_ne_some]
    intro o ho
    obtain ⟨rfl, _, _⟩ := Entity.override_eq ho
    revert hdot
    decide
  refine ⟨?_, ?_⟩
  · rw [Entity.convertValue_eq entity (hstatus name hname), Entity.convertValue_eq entity (hstatus other hother)]
  · rw [operatorFor?, operatorFor?, hnone name hname, hnone other hother]

end Descriptor

namespace Criterion

/-- The operator for the criterion makes the same of the field and the converted value under the other key. -/
def OperatesAlike (c : Criterion) (other : String) (d : Descriptor) (registry : Registry) (field : Field) :
    Prop :=
  ∀ o value, d.operatorFor? (d.mappedKey c.key) c.operator registry = some o →
    d.convertValue (d.mappedKey c.key) c.value = .ok value →
      o.operate field { c with key := other, value } = o.operate field { c with value }

theorem operatesAlike_of_ignoresKey
    (h : ∀ o, d.operatorFor? (d.mappedKey c.key) c.operator registry = some o → o.IgnoresKey) :
    c.OperatesAlike other d registry field :=
  fun o value ho _ => h o ho field { c with value } other

/-- The operators of the searches do not read the key. -/
theorem operatesAlike_entity (entity : Entity) : c.OperatesAlike other entity.descriptor .standard field := by
  refine operatesAlike_of_ignoresKey fun o ho => ?_
  rcases Option.or_eq_some_iff.mp ho with hoverride | ⟨_, hregistered⟩
  · obtain ⟨_, _, rfl⟩ := Entity.override_eq hoverride
    exact Operator.ignoresKey_ofValue _
  · exact Registry.standard_ignoresKey hregistered

/-- With the other key in its place the criterion comes out the same: the same filter, or an error with the
same cause. -/
def Exchanges (c : Criterion) (other : String) (d : Descriptor) (registry : Registry) : Prop :=
  compile { c with key := other } d registry = (c.compile d registry).mapError (SearchError.named other)

theorem exchanges_of_treatsAlike (hs : d.supports c.operator = true)
    (hf : d.scope.resolve (d.pathOf (d.mappedKey c.key)) = .ok field)
    (hother : d.scope.resolve (d.pathOf (d.mappedKey other)) = .ok field)
    (h : d.TreatsAlike registry c (d.mappedKey c.key) (d.mappedKey other))
    (hoperate : c.OperatesAlike other d registry field) : c.Exchanges other d registry := by
  obtain ⟨hconvert, hoperator⟩ := h
  have hc : c.GoesTo d registry field := goesTo_of_resolve hs hf
  have hc' : GoesTo { c with key := other } d registry field := goesTo_of_resolve hs hother
  rw [Exchanges]
  unfold GoesTo at hc hc'
  -- Both runs are split by what is found for the first key.
  dsimp only at hc'
  rw [← hconvert, ← hoperator] at hc'
  cases hvalue : d.convertValue (d.mappedKey c.key) c.value with
  | error cause =>
      rw [hvalue] at hc hc'
      rw [hc, hc']
      rfl
  | ok value =>
      cases ho : d.operatorFor? (d.mappedKey c.key) c.operator registry with
      | none =>
          rw [hvalue, ho] at hc hc'
          rw [hc, hc']
          rfl
      | some o =>
          rw [hvalue, ho] at hc hc'
          rw [hc, hc', hoperate o value ho hvalue]
          cases o.operate field { c with value } <;> rfl

/-- Two keys that lead to the same field can be exchanged if they are treated alike and the operator makes the
same of the field and the value under both. They are treated alike unless both stand for names with dots that
are followed differently from how they are written, and always by the descriptors of the kinds of records that
can be searched; with the operators of the searches they can be exchanged there. What becomes of each criterion
is what its own name says, with the converter and the override that are kept for that name. -/
theorem compile_alias (hs : d.supports c.operator = true)
    (hf : d.scope.resolve (d.pathOf (d.mappedKey c.key)) = .ok field)
    (hother : d.scope.resolve (d.pathOf (d.mappedKey other)) = .ok field) :
    (d.TreatsAlike registry c (d.mappedKey c.key) (d.mappedKey other) →
      c.OperatesAlike other d registry field → c.Exchanges other d registry) ∧
    (¬ d.TreatsAlike registry c (d.mappedKey c.key) (d.mappedKey other) →
      '.' ∈ (d.mappedKey c.key).toList ∧ '.' ∈ (d.mappedKey other).toList ∧
        ¬ (d.Settled (d.mappedKey c.key) ∧ d.Settled (d.mappedKey other))) ∧
    (∀ entity : Entity, d = entity.descriptor →
      d.TreatsAlike registry c (d.mappedKey c.key) (d.mappedKey other) ∧
        (registry = .standard → c.Exchanges other d registry)) ∧
    (∀ literal o, Registry.standard.get? literal = some o → o.IgnoresKey) ∧ Operator.assigned.IgnoresKey ∧
    c.GoesTo d registry field ∧ GoesTo { c with key := other } d registry field := by
  have hpaths : d.pathOf (d.mappedKey c.key) = d.pathOf (d.mappedKey other) := by
    rw [← FieldTable.path_of_resolve hf, ← FieldTable.path_of_resolve hother]
  have hdotted : ¬ d.TreatsAlike registry c (d.mappedKey c.key) (d.mappedKey other) →
      '.' ∈ (d.mappedKey c.key).toList ∧ '.' ∈ (d.mappedKey other).toList ∧
        ¬ (d.Settled (d.mappedKey c.key) ∧ d.Settled (d.mappedKey other)) := by
    intro hdiffers
    apply Descriptor.dotted_of_pathOf_eq hpaths
    intro hsame
    rw [hsame] at hdiffers
    exact hdiffers Descriptor.treatsAlike_self
  refine ⟨exchanges_of_treatsAlike hs hf hother, hdotted, ?_, fun _ _ => Registry.standard_ignoresKey,
    Operator.ignoresKey_ofValue _, goesTo_of_resolve hs hf, goesTo_of_resolve hs hother⟩
  rintro entity rfl
  have halike : entity.descriptor.TreatsAlike registry c (entity.descriptor.mappedKey c.key)
      (entity.descriptor.mappedKey other) := by
    by_contra hdiffers
    obtain ⟨hname, hname', _⟩ := hdotted hdiffers
    exact hdiffers (Descriptor.treatsAlike_of_dotted hname hname')
  refine ⟨halike, ?_⟩
  rintro rfl
  exact exchanges_of_treatsAlike hs hf hother halike (operatesAlike_entity entity)

/-- The search of users with a short name for the role. -/
def shortRole : Descriptor := Entity.users.descriptor.rename "r" "role"

/-- The short name is as good as the long one, both for a filter and for a value that is no number. -/
theorem compile_alias_role :
    compile ⟨"role.name", "=", .text "admin", false⟩ shortRole .standard =
        .ok (.restricted (.equals ⟨["role", "name"], .text⟩ (.text "admin"))) ∧
      compile ⟨"r.name", "=", .text "admin", false⟩ shortRole .standard =
        .ok (.restricted (.equals ⟨["role", "name"], .text⟩ (.text "admin"))) ∧
      compile ⟨"role.id", "=", .text "seven", false⟩ shortRole .standard =
        .error (.criterion "role.id" "=" (.value (.notInteger "seven"))) ∧
      compile ⟨"r.id", "=", .text "seven", false⟩ shortRole .standard =
        .error (.criterion "r.id" "=" (.value (.notInteger "seven"))) := by
  have hname : compile ⟨"role.name", "=", .text "admin", false⟩ shortRole .standard =
      .ok (.restricted (.equals ⟨["role", "name"], .text⟩ (.text "admin"))) := rfl
  have hnumber : compile ⟨"role.id", "=", .text "seven", false⟩ shortRole .standard =
      .error (.criterion "role.id" "=" (.value (.notInteger "seven"))) := rfl
  obtain ⟨hexchange, _, _, hstandard, _⟩ := @compile_alias shortRole .standard
    ⟨"role.name", "=", .text "admin", false⟩ "r.name" ⟨["role", "name"], .text⟩ (by decide) rfl rfl
  obtain ⟨hexchange', _⟩ := @compile_alias shortRole .standard ⟨"role.id", "=", .text "seven", false⟩ "r.id"
    ⟨["role", "id"], .integer⟩ (by decide) rfl rfl
  have hexchange := hexchange ⟨rfl, rfl⟩ (operatesAlike_of_ignoresKey fun o => hstandard "=" o)
  have hexchange' := hexchange' ⟨rfl, rfl⟩ (operatesAlike_of_ignoresKey fun o => hstandard "=" o)
  refine ⟨hname, hexchange.trans ?_, hnumber, hexchange'.trans ?_⟩
  · exact congrArg (Except.mapError _) hname
  · exact congrArg (Except.mapError _) hnumber

/-- What is kept for the long name is not found by the short one: neither the conversion of the value nor the
operator. And an operator that reads the key does so as it was written. -/
theorem compile_alias_differs :
    let strict := shortRole.convert "role.name" fun _ => .error (.stated "cannot convert admin")
    let lenient := shortRole.override "role.name" ⟨"=", fun _ _ => .ok .unrestricted⟩
    let naming : Registry := .ofList [⟨"=", fun _ c => .error (.stated c.key)⟩]
    shortRole.scope.resolve (shortRole.pathOf (shortRole.mappedKey "role.name")) =
        .ok ⟨["role", "name"], .text⟩ ∧
      shortRole.scope.resolve (shortRole.pathOf (shortRole.mappedKey "r.name")) =
        .ok ⟨["role", "name"], .text⟩ ∧
      compile ⟨"role.name", "=", .text "admin", false⟩ strict .standard =
        .error (.criterion "role.name" "=" (.stated "cannot convert admin")) ∧
      compile ⟨"r.name", "=", .text "admin", false⟩ strict .standard =
        .ok (.restricted (.equals ⟨["role", "name"], .text⟩ (.text "admin"))) ∧
      compile ⟨"role.name", "=", .text "admin", false⟩ lenient .standard = .ok .unrestricted ∧
      compile ⟨"r.name", "=", .text "admin", false⟩ lenient .standard =
        .ok (.restricted (.equals ⟨["role", "name"], .text⟩ (.text "admin"))) ∧
      compile ⟨"role.name", "=", .text "admin", false⟩ shortRole naming =
        .error (.criterion "role.name" "=" (.stated "role.name")) ∧
      compile ⟨"r.name", "=", .text "admin", false⟩ shortRole naming =
        .error (.criterion "r.name" "=" (.stated "r.name")) :=
  ⟨rfl, rfl, rfl, rfl, rfl, rfl, rfl, rfl⟩

end Criterion

end RecordSearch

import RecordSearch.Proofs.Query.Compile

/-!
# Overrides

An override of an operator on a field counts for the criteria on that field with its literal, before the
registry and before earlier overrides there. All other criteria are compiled as if it had not been added.
-/

namespace RecordSearch

variable {d : Descriptor} {registry : Registry} {key mapped literal name : String} {o : Operator}
  {c : Criterion} {added : List (String × Operator)}

namespace Descriptor

@[simp]
theorem mappedKey_override : (d.override key o).mappedKey name = d.mappedKey name := rfl

@[simp]
theorem pathOf_override : (d.override key o).pathOf name = d.pathOf name := rfl

@[simp]
theorem convertValue_override (value : Value) :
    (d.override key o).convertValue name value = d.convertValue name value := rfl

@[simp]
theorem supports_override : (d.override key o).supports literal = d.supports literal := rfl

@[simp]
theorem scope_override : (d.override key o).scope = d.scope := rfl

theorem operatorFor?_override_of_ne (h : mapped ≠ key ∨ literal ≠ o.literal) :
    (d.override key o).operatorFor? mapped literal registry = d.operatorFor? mapped literal registry := by
  have hne : (mapped, literal) ≠ (key, o.literal) := by
    intro e
    obtain ⟨hkey, hliteral⟩ := Prod.mk.inj e
    rcases h with h | h
    · exact h hkey
    · exact h hliteral
  simp only [operatorFor?, override, Dictionary.get?_insert_of_ne _ _ hne]

theorem operatorFor?_override_self :
    (d.override key o).operatorFor? key o.literal registry = some o := by
  simp only [operatorFor?, override, Dictionary.get?_insert_self, Option.some_or]

/-- The descriptor with overrides added one after the other. -/
def overrideAll (d : Descriptor) (added : List (String × Operator)) : Descriptor :=
  added.foldl (fun d a => d.override a.1 a.2) d

end Descriptor

namespace Criterion

theorem compile_override_of_ne (h : d.mappedKey c.key ≠ key ∨ c.operator ≠ o.literal) :
    c.compile (d.override key o) registry = c.compile d registry := by
  simp only [compile, Descriptor.mappedKey_override, Descriptor.convertValue_override,
    Descriptor.supports_override, Descriptor.scope_override, Descriptor.pathOf_override,
    Descriptor.operatorFor?_override_of_ne h]

theorem compile_overrideAll_of_ne
    (h : ∀ a ∈ added, d.mappedKey c.key ≠ a.1 ∨ c.operator ≠ a.2.literal) :
    c.compile (d.overrideAll added) registry = c.compile d registry := by
  induction added generalizing d with
  | nil => rfl
  | cons a added ih =>
      obtain ⟨ha, hadded⟩ := List.forall_mem_cons.mp h
      have hrest : c.compile ((d.override a.1 a.2).overrideAll added) registry =
          c.compile (d.override a.1 a.2) registry := ih hadded
      exact hrest.trans (compile_override_of_ne ha)

/-- A criterion on another field or with another literal is compiled as without the override. One on its field
with its literal, if the literal is accepted, its value converts and there is the field, is what the operator
of the override makes of the field and the criterion with the converted value, whatever the registry or earlier
overrides hold. Overrides that are added later for other fields or literals change nothing about that. -/
theorem compile_override (d : Descriptor) (key : String) (o : Operator) (registry : Registry)
    (c : Criterion) :
    (d.mappedKey c.key ≠ key ∨ c.operator ≠ o.literal →
      c.compile (d.override key o) registry = c.compile d registry) ∧
    (d.mappedKey c.key = key → c.operator = o.literal → d.supports c.operator = true →
      ∀ value field, d.convertValue key c.value = .ok value → d.scope.resolve (d.pathOf key) = .ok field →
        c.compile (d.override key o) registry =
          (o.operate field { c with value }).mapError (.criterion c.key c.operator)) ∧
    ∀ added, (∀ a ∈ added, d.mappedKey c.key ≠ a.1 ∨ c.operator ≠ a.2.literal) →
      c.compile ((d.override key o).overrideAll added) registry = c.compile (d.override key o) registry := by
  refine ⟨compile_override_of_ne, ?_, fun added h => compile_overrideAll_of_ne h⟩
  intro hkey hliteral hs value field hvalue hf
  subst hkey
  apply compile_of_operator
  · exact hs
  · exact hvalue
  · exact hf
  · rw [hliteral]
    exact Descriptor.operatorFor?_override_self

/-- The operator for assigned members gives way to another one with its literal, though the registry is empty.
Other literals on that field are as before, until one of them is overridden, too. -/
theorem compile_override_assigned :
    let all : Operator := ⟨":=", fun _ _ => .ok .unrestricted⟩
    let refused : Operator := ⟨"=", fun field _ => .error (.stated (dotted field.path))⟩
    let d := Entity.submittedApplications.descriptor
    let c (literal : String) : Criterion := ⟨"assigned", literal, .text "al", false⟩
    (c ":=").compile ((d.override Entity.assignedField all).overrideAll
        [("status", all), (Entity.assignedField, refused)]) {} = .ok .unrestricted ∧
      (c "=").compile (d.override Entity.assignedField all) {} = .error (.unknownOperator "=") ∧
      (c "=").compile (d.override Entity.assignedField refused) {} =
        .error (.criterion "assigned" "=" (.stated "assignedCommitteeMembers")) := by
  intro all refused d c
  have hfield : d.scope.resolve (d.pathOf Entity.assignedField) =
      .ok ⟨["assignedCommitteeMembers"], .list (.object committeeMemberFields)⟩ := rfl
  have hbefore :
      Criterion.compile ⟨"assigned", "=", .text "al", false⟩ Entity.submittedApplications.descriptor {} =
      .error (.unknownOperator "=") := rfl
  obtain ⟨_, hmembers, hlater⟩ := compile_override d Entity.assignedField all {} (c ":=")
  obtain ⟨hother, _, _⟩ := compile_override d Entity.assignedField all {} (c "=")
  obtain ⟨_, hrefused, _⟩ := compile_override d Entity.assignedField refused {} (c "=")
  refine ⟨(hlater _ (by decide)).trans ?_, (hother (.inr (by decide))).trans hbefore, ?_⟩
  · exact hmembers rfl rfl rfl _ _ rfl hfield
  · exact hrefused rfl rfl rfl _ _ rfl hfield

end Criterion

end RecordSearch

import RecordSearch.Proofs.Field
import RecordSearch.Proofs.Query.Typing

/-!
# Queries for all applications

A query that compiles for all applications compiles for each variant of them, to the same filter. The fields
that all applications have are fields of every variant, with the same types, and what is said of assigned
members for some variants only has no part in such a query.
-/

namespace RecordSearch

variable {registry : Registry} {f : Filter}

/-! ## Tables of fields -/

mutual

/-- The names in a table of fields and in the tables inside it. -/
def FieldTable.names : List (String × FieldType) → List String
  | [] => []
  | (name, type) :: fields => name :: (FieldType.names type ++ FieldTable.names fields)

def FieldType.names : FieldType → List String
  | .object fields => FieldTable.names fields
  | _ => []

end

namespace FieldTable

variable {fields more nested : FieldTable} {path : List String} {name : String} {type : FieldType}

theorem names_append : names (fields ++ more) = names fields ++ names more := by
  induction fields with
  | nil => rfl
  | cons first fields ih =>
      rw [List.cons_append, names, names, ih, List.cons_append, List.append_assoc]

theorem mem_names_of_find? (h : find? fields name = some type) : name ∈ names fields := by
  obtain ⟨before, after, rfl, _⟩ := List.lookup_eq_some_iff.mp h
  rw [names_append, names]
  exact List.mem_append_right _ List.mem_cons_self

theorem mem_names_of_nested {inner : String} (h : find? fields name = some (.object nested))
    (hi : inner ∈ names nested) : inner ∈ names fields := by
  obtain ⟨before, after, rfl, _⟩ := List.lookup_eq_some_iff.mp h
  rw [names_append, names]
  exact List.mem_append_right _ (List.mem_cons_of_mem _ (List.mem_append_left _ hi))

/-- A path that leads anywhere consists of names of the table. -/
theorem LeadsTo.mem_names (h : LeadsTo fields path type) : ∀ segment ∈ path, segment ∈ names fields := by
  induction h with
  | last hfind => exact List.forall_mem_singleton.mpr (mem_names_of_find? hfind)
  | into hfind _ ih =>
      rw [List.forall_mem_cons]
      exact ⟨mem_names_of_find? hfind, fun inner hi => mem_names_of_nested hfind (ih inner hi)⟩

theorem find?_append (h : find? fields name = some type) : find? (fields ++ more) name = some type := by
  rw [find?, Dictionary.lookup_append, ← find?, h, Option.some_or]

/-- A path leads where it does with more fields behind the others. -/
theorem LeadsTo.extend (h : LeadsTo fields path type) : LeadsTo (fields ++ more) path type := by
  cases h with
  | last hfind => exact .last (find?_append hfind)
  | into hfind hp => exact .into (find?_append hfind) hp

end FieldTable

/-! ## Variants of applications -/

/-- What a variant of applications is searched as. -/
def ApplicationVariant.entity : ApplicationVariant → Entity
  | .draft => .draftApplications
  | .submitted => .submittedApplications
  | .referred => .referredApplications

/-- The public key that only some variants know. -/
def Entity.assignedKey : String := "assigned"

namespace ApplicationVariant

variable (v : ApplicationVariant) {key mapped : String} {path : List String} {field : Field}

theorem scope_entity : v.entity.descriptor.scope = .variant v := by
  cases v <;> rfl

theorem grammar_entity : v.entity.descriptor.grammar = Entity.applications.descriptor.grammar := by
  cases v <;> rfl

theorem supports_entity (literal : String) :
    v.entity.descriptor.supports literal = Entity.applications.descriptor.supports literal := by
  cases v <;> rfl

theorem fields_eq : ∃ more, (Scope.variant v).fields = draftFields ++ more := by
  cases v with
  | draft => exact ⟨[], (List.append_nil _).symm⟩
  | submitted => exact ⟨_, rfl⟩
  | referred => exact ⟨_, List.append_assoc _ _ _⟩

theorem resolve_entity (h : Entity.applications.descriptor.scope.resolve path = .ok field) :
    v.entity.descriptor.scope.resolve path = .ok field := by
  obtain ⟨more, hmore⟩ := v.fields_eq
  obtain ⟨hleads, hpath⟩ := FieldTable.resolve_eq_ok_iff.mp h
  rw [scope_entity, Scope.resolve, hmore]
  exact FieldTable.resolve_eq_ok_iff.mpr ⟨hleads.extend, hpath⟩

theorem mappedKey_entity (h : key ≠ Entity.assignedKey) :
    v.entity.descriptor.mappedKey key = Entity.applications.descriptor.mappedKey key := by
  have hget := Dictionary.get?_insert_of_ne Entity.applications.descriptor.renames Entity.assignedField h
  cases v with
  | draft => rfl
  | submitted | referred => exact congrArg (Option.getD · key) hget

theorem convertValue_entity (key : String) (value : Value) :
    v.entity.descriptor.convertValue (v.entity.descriptor.mappedKey key) value =
      Entity.applications.descriptor.convertValue (Entity.applications.descriptor.mappedKey key) value := by
  by_cases hkey : key = Entity.assignedKey
  · subst hkey
    have hmapped : v.entity.descriptor.mappedKey Entity.assignedKey ≠ "status" := by
      cases v <;> decide
    rw [Entity.convertValue_eq _ hmapped, Entity.convertValue_eq _ (by decide)]
  · rw [v.mappedKey_entity hkey]
    cases v <;> rfl

theorem mem_names_of_resolve (h : Entity.applications.descriptor.scope.resolve path = .ok field) :
    ∀ segment ∈ path, segment ∈ FieldTable.names draftFields :=
  (FieldTable.leadsTo_of_resolveUnder h).mem_names

/-- No key of a path that all applications have is the one for assigned members. -/
theorem ne_assignedKey (h : Entity.applications.descriptor.mappedKey key ∈ FieldTable.names draftFields) :
    key ≠ Entity.assignedKey := by
  rintro rfl
  exact absurd h (by decide)

theorem pathOf_entity (h : Entity.applications.descriptor.scope.resolve
    (Entity.applications.descriptor.pathOf mapped) = .ok field) :
    v.entity.descriptor.pathOf mapped = Entity.applications.descriptor.pathOf mapped := by
  by_cases hdot : '.' ∈ mapped.toList
  · rw [Descriptor.pathOf_of_mem hdot] at h ⊢
    rw [Descriptor.pathOf_of_mem hdot]
    refine List.map_congr_left fun segment hs => v.mappedKey_entity (ne_assignedKey ?_)
    exact mem_names_of_resolve h _ (List.mem_map_of_mem hs)
  · rw [Descriptor.pathOf_of_not_mem hdot, Descriptor.pathOf_of_not_mem hdot]

/-- On a field that all applications have no variant takes an operator in another meaning. -/
theorem operatorFor?_entity (h : Entity.applications.descriptor.scope.resolve
    (Entity.applications.descriptor.pathOf mapped) = .ok field) (literal : String) :
    v.entity.descriptor.operatorFor? mapped literal registry =
      Entity.applications.descriptor.operatorFor? mapped literal registry := by
  have hnone (entity : Entity) : entity.descriptor.overrides.get? (mapped, literal) = none := by
    rw [Option.eq_none_iff_forall_ne_some]
    intro o ho
    rw [(Entity.override_eq ho).1] at h
    cases h
  rw [Descriptor.operatorFor?, Descriptor.operatorFor?, hnone, hnone]

end ApplicationVariant

/-- A criterion that compiles for all applications compiles for each variant, to the same filter. -/
theorem Criterion.compile_variant {c : Criterion} (v : ApplicationVariant)
    (h : c.compile Entity.applications.descriptor registry = .ok f) :
    c.compile v.entity.descriptor registry = .ok f := by
  obtain ⟨value, hvalue, hrest⟩ := compile_eq_ok_iff.mp h
  refine compile_eq_ok_iff.mpr ⟨value, (v.convertValue_entity c.key c.value).trans hvalue, ?_⟩
  rw [v.supports_entity]
  refine hrest.imp id ?_
  rintro ⟨hs, field, o, hfield, ho, hoperate⟩
  have hkey : c.key ≠ Entity.assignedKey := by
    intro e
    rw [e] at hfield
    cases hfield
  rw [v.mappedKey_entity hkey, v.pathOf_entity hfield, v.operatorFor?_entity hfield]
  exact ⟨hs, field, o, v.resolve_entity hfield, ho, hoperate⟩

namespace Query

variable {d d' : Descriptor} {criteria : List Criterion} {asked : Nat} {running : Option Filter}

/-- Criteria of which each compiles for another descriptor to the same filter do so together. -/
theorem buildFrom_of_compile
    (hc : ∀ c ∈ criteria, ∀ g, c.compile d registry = .ok g → c.compile d' registry = .ok g)
    (h : (buildFrom (fun _ => some d) registry asked running criteria).2 = .ok f) :
    (buildFrom (fun _ => some d') registry asked running criteria).2 = .ok f := by
  induction criteria generalizing asked running with
  | nil => exact h
  | cons c rest ih =>
      rw [List.forall_mem_cons] at hc
      obtain ⟨g, hg, h⟩ := buildFrom_cons_eq_ok_iff.mp h
      exact buildFrom_cons_eq_ok_iff.mpr ⟨g, hc.1 g hg, ih hc.2 h⟩

end Query

/-- A query that compiles for all applications compiles for each variant, to the same filter. -/
theorem Entity.compile_variant {query : String} {byOr : Bool} {scope : Scope} (v : ApplicationVariant)
    (h : applications.compile query byOr = .ok (scope, f)) :
    v.entity.compile query byOr = .ok (.variant v, f) := by
  obtain ⟨_, hf⟩ := compile_eq_ok_iff.mp h
  refine compile_eq_ok_iff.mpr ⟨v.scope_entity.symm, ?_⟩
  rw [v.grammar_entity]
  exact Query.buildFrom_of_compile (fun c _ g hg => c.compile_variant v hg) hf

end RecordSearch

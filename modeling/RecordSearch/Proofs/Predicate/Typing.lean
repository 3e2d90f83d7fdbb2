import RecordSearch.Operator.Basic
import RecordSearch.Record.Fields
import RecordSearch.Proofs.Outcome

/-!
# Typed predicates

What a predicate must look like to make sense in a scope, and that the operators of the query languages
make only such predicates. The operator for assigned members does so on the list of these members alone.
-/

namespace RecordSearch

variable {scope : Scope}

/-- A field of the type can hold the value by itself. Objects and lists hold no value. -/
def Value.HasType : Value → FieldType → Prop
  | .text _, .text => True
  | .integer _, .integer => True
  | .boolean _, .boolean => True
  | .enum name, .enum names => name ∈ names
  | .timestamp _, .timestamp => True
  | _, _ => False

theorem Value.not_hasType_object {v : Value} {fields : FieldTable} : ¬ v.HasType (.object fields) := by
  cases v <;> exact id

theorem Value.not_hasType_list {v : Value} {element : FieldType} : ¬ v.HasType (.list element) := by
  cases v <;> exact id

/-- The path of the field leads in the scope to just the type that the field says it has. -/
def Scope.Declares (scope : Scope) (field : Field) : Prop := scope.resolve field.path = .ok field

/-- The path of the list of members assigned to an application. -/
def assignedPath : List String := ["assignedCommitteeMembers"]

/-- The user name of a member. -/
def memberName : Field := ⟨["user", "username"], .text⟩

namespace Predicate

/-- Every test of the predicate is on a field of the scope and fits its type. -/
def WellTyped (scope : Scope) : Predicate → Prop
  | .equals field value => scope.Declares field ∧ value.HasType field.type
  | .like field _ _ => scope.Declares field ∧ field.type = .text
  | .atLeast field value => scope.Declares field ∧ field.type = .timestamp ∧ ∃ t, value = .timestamp t
  | .atMost field value => scope.Declares field ∧
      (field.type = .timestamp → ∃ t, value = .timestamp t) ∧
      (field.type ≠ .timestamp → ∃ s, value = .text s)
  | .includes field value =>
      scope.Declares field ∧ ∃ element, field.type = .list element ∧ value.HasType element
  | .anyRelated collection member value => scope.Declares collection ∧
      collection.path = assignedPath ∧ member = memberName ∧
      collection.elementField member.path = .ok member ∧ ∃ s, value = .text s
  | .and left right => WellTyped scope left ∧ WellTyped scope right
  | .or left right => WellTyped scope left ∧ WellTyped scope right

end Predicate

namespace Filter

def WellTyped (scope : Scope) : Filter → Prop
  | .unrestricted => True
  | .restricted p => p.WellTyped scope

variable {f g : Filter}

theorem WellTyped.and (hf : f.WellTyped scope) (hg : g.WellTyped scope) : (f.and g).WellTyped scope := by
  cases f with
  | unrestricted => exact hg
  | restricted p =>
      cases g with
      | unrestricted => exact hf
      | restricted q => exact ⟨hf, hg⟩

theorem WellTyped.or (hf : f.WellTyped scope) (hg : g.WellTyped scope) : (f.or g).WellTyped scope := by
  cases f with
  | unrestricted => trivial
  | restricted p =>
      cases g with
      | unrestricted => trivial
      | restricted q => exact ⟨hf, hg⟩

end Filter

theorem FieldType.isText_iff {type : FieldType} : type.isText = true ↔ type = .text := by
  cases type <;> simp [isText]

theorem FieldType.isTimestamp_iff {type : FieldType} : type.isTimestamp = true ↔ type = .timestamp := by
  cases type <;> simp [isTimestamp]

theorem FieldType.element?_eq_some_iff {type element : FieldType} :
    type.element? = some element ↔ type = .list element := by
  cases type <;> simp [element?]

theorem Value.hasType_of_coerce {value typed : Value} {type : FieldType}
    (h : value.coerce type = .ok typed) : typed.HasType type := by
  unfold coerce at h
  split at h <;> (try split at h) <;> (try split at h) <;> cases h <;> simp_all [HasType]

namespace Operator

/-- On the given fields of the scope the operator makes only filters that are well typed there. -/
def TypedOn (scope : Scope) (fields : Field → Prop) (o : Operator) : Prop :=
  ∀ {field : Field} {c : Criterion} {f : Filter}, scope.Declares field → fields field →
    o.operate field c = .ok f → f.WellTyped scope

theorem coerceTo_eq_ok_iff {type : FieldType} {value typed : Value} :
    coerceTo type value = .ok typed ↔ value.coerce type = .ok typed :=
  mapError_eq_ok_iff

variable {field : Field} {value : Value} {f : Filter}

theorem equalTo_wellTyped (hd : scope.Declares field) (h : equalTo field value = .ok f) :
    f.WellTyped scope := by
  obtain ⟨typed, hv, h⟩ := bind_eq_ok_iff.mp h
  cases h
  exact ⟨hd, Value.hasType_of_coerce (coerceTo_eq_ok_iff.mp hv)⟩

theorem containsText_wellTyped (hd : scope.Declares field) (h : containsText field value = .ok f) :
    f.WellTyped scope := by
  unfold containsText at h
  split at h
  · next ht => cases h; exact ⟨hd, FieldType.isText_iff.mp ht⟩
  · exact equalTo_wellTyped hd h

theorem containsTextIgnoringCase_wellTyped (hd : scope.Declares field)
    (h : containsTextIgnoringCase field value = .ok f) : f.WellTyped scope := by
  unfold containsTextIgnoringCase at h
  split at h
  · next ht => cases h; exact ⟨hd, FieldType.isText_iff.mp ht⟩
  · exact equalTo_wellTyped hd h

theorem hasMember_wellTyped (hd : scope.Declares field) (h : hasMember field value = .ok f) :
    f.WellTyped scope := by
  unfold hasMember at h
  split at h
  · exact containsText_wellTyped hd h
  · split at h
    · next element he =>
        obtain ⟨typed, hv, h⟩ := bind_eq_ok_iff.mp h
        cases h
        exact ⟨hd, element, FieldType.element?_eq_some_iff.mp he,
          Value.hasType_of_coerce (coerceTo_eq_ok_iff.mp hv)⟩
    · cases h; trivial

/-- A bound is a point in time on the fields that hold one and the text of the value elsewhere. -/
theorem bounded_wellTyped (restrict : Field → Value → Predicate)
    (hr : ∀ t, field.type = .timestamp → (restrict field (.timestamp t)).WellTyped scope)
    (hd : scope.Declares field) (h : bounded restrict field value = .ok f) : f.WellTyped scope := by
  unfold bounded at h
  split at h
  · next ht =>
      split at h
      · cases h; exact hr _ (FieldType.isTimestamp_iff.mp ht)
      · cases h; trivial
  · next ht =>
      cases h
      exact ⟨hd, fun e => absurd (FieldType.isTimestamp_iff.mpr e) ht, fun _ => ⟨_, rfl⟩⟩

theorem atLeast_wellTyped (hd : scope.Declares field) (h : bounded .atLeast field value = .ok f) :
    f.WellTyped scope :=
  bounded_wellTyped .atLeast (fun t ht => ⟨hd, ht, t, rfl⟩) hd h

theorem atMost_wellTyped (hd : scope.Declares field) (h : bounded .atMost field value = .ok f) :
    f.WellTyped scope :=
  bounded_wellTyped .atMost (fun t ht => ⟨hd, fun _ => ⟨t, rfl⟩, fun hn => absurd ht hn⟩) hd h

theorem type_of_assignedPath (hd : scope.Declares field) (hp : field.path = assignedPath) :
    field.type = .list (.object committeeMemberFields) := by
  unfold Scope.Declares at hd
  rw [hp] at hd
  rcases scope with _ | _ | _ | (_ | _ | _) <;>
    simp [Scope.resolve, FieldTable.resolve, FieldTable.resolveUnder, FieldTable.find?, Scope.fields,
      assignedPath, accountFields, userFields, draftFields, submittedFields, referredFields,
      List.lookup_cons] at hd
  all_goals subst hd; rfl

theorem elementField_memberName (h : field.type = .list (.object committeeMemberFields)) :
    field.elementField memberName.path = .ok memberName := by
  unfold Field.elementField
  rw [h]
  rfl

theorem assigned_typedOn : assigned.TypedOn scope (·.path = assignedPath) := by
  intro field c f hd hp h
  have he := elementField_memberName (type_of_assignedPath hd hp)
  obtain ⟨member, hm, h⟩ := bind_eq_ok_iff.mp h
  obtain rfl : memberName = member := by
    simpa using he.symm.trans (mapError_eq_ok_iff.mp hm)
  obtain ⟨typed, hv, h⟩ := bind_eq_ok_iff.mp h
  cases h
  have hv := Value.hasType_of_coerce (coerceTo_eq_ok_iff.mp hv)
  refine ⟨hd, hp, rfl, he, ?_⟩
  cases typed with
  | text s => exact ⟨s, rfl⟩
  | _ => exact hv.elim

end Operator

/-- An operator found in a registry is one of those that it was made of. -/
theorem Registry.mem_of_get?_ofList {operators : List Operator} {literal : String} {o : Operator}
    (h : (ofList operators).get? literal = some o) : o ∈ operators := by
  suffices ∀ (registry : Registry), (operators.foldl (fun r o => r.insert o.literal o) registry).get? literal = some o →
      o ∈ operators ∨ registry.get? literal = some o by
    rcases this {} h with hm | he
    · exact hm
    · cases he
  clear h
  induction operators with
  | nil => intro registry h; exact .inr h
  | cons first rest ih =>
      intro registry h
      rcases ih _ h with hm | he
      · exact .inl (List.mem_cons_of_mem _ hm)
      · by_cases hl : literal = first.literal
        · subst hl
          rw [Dictionary.get?_insert_self] at he
          cases he
          exact .inl List.mem_cons_self
        · rw [Dictionary.get?_insert_of_ne _ _ hl] at he
          exact .inr he

theorem Registry.standard_typedOn {literal : String} {o : Operator}
    (h : standard.get? literal = some o) : o.TypedOn scope fun _ => True := by
  have hm := mem_of_get?_ofList h
  simp only [List.mem_cons, List.not_mem_nil, or_false] at hm
  intro field c f hd _ hf
  rcases hm with rfl | rfl | rfl | rfl | rfl | rfl
  · exact Operator.equalTo_wellTyped hd hf
  · exact Operator.containsText_wellTyped hd hf
  · exact Operator.containsTextIgnoringCase_wellTyped hd hf
  · exact Operator.hasMember_wellTyped hd hf
  · exact Operator.atLeast_wellTyped hd hf
  · exact Operator.atMost_wellTyped hd hf

end RecordSearch

import RecordSearch.Predicate.Eval
import RecordSearch.Proofs.Predicate.Typing

/-!
# The fields that predicates test

What a predicate says of a document depends on the fields that it tests alone, and the operators test the
field that they are applied to and no other, whatever the key of the criterion. A predicate on a record inside
another one has the path to that record before the paths of its fields.
-/

namespace RecordSearch

/-- The field of a record that is held under a name. -/
def Field.under (name : String) (field : Field) : Field := ⟨name :: field.path, field.type⟩

namespace Predicate

variable {p : Predicate} {doc other inner : Json} {name : String}

/-- The fields that are tested. Of a collection that is the collection itself, for the field of its elements
has its path in them. -/
def fields : Predicate → List Field
  | .equals field _ | .like field _ _ | .atLeast field _ | .atMost field _ | .includes field _ => [field]
  | .anyRelated collection _ _ => [collection]
  | .and left right | .or left right => left.fields ++ right.fields

/-- Documents in which the fields of a predicate hold the same are the same to it. -/
theorem eval_congr (h : ∀ field ∈ p.fields, doc.lookup field.path = other.lookup field.path) :
    p.eval doc = p.eval other := by
  induction p with
  | and left right ihl ihr | or left right ihl ihr =>
      simp only [fields, List.mem_append] at h
      rw [eval, eval, ihl fun field hf => h field (.inl hf), ihr fun field hf => h field (.inr hf)]
  | _ =>
      simp only [fields, List.forall_mem_singleton] at h
      rw [eval, eval, h]

/-- The predicate with the name before the path of each field. -/
def under (name : String) : Predicate → Predicate
  | .equals field value => .equals (field.under name) value
  | .like field pattern ignoreCase => .like (field.under name) pattern ignoreCase
  | .atLeast field value => .atLeast (field.under name) value
  | .atMost field value => .atMost (field.under name) value
  | .includes field value => .includes (field.under name) value
  | .anyRelated collection member value => .anyRelated (collection.under name) member value
  | .and left right => .and (left.under name) (right.under name)
  | .or left right => .or (left.under name) (right.under name)

theorem lookup_under (h : doc.member? name = some inner) (field : Field) :
    doc.lookup (field.under name).path = inner.lookup field.path := by
  rw [Field.under, Json.lookup, h, Option.bind_some]

theorem eval_under (h : doc.member? name = some inner) : (p.under name).eval doc = p.eval inner := by
  induction p with
  | and left right ihl ihr | or left right ihl ihr => rw [under, eval, eval, ihl, ihr]
  | _ => rw [under, eval, eval, lookup_under h]

end Predicate

namespace Operator

variable {field : Field} {value : Value} {p : Predicate} {name literal : String}

theorem operate_ofValue (make : Field → Value → Except Cause Filter) (c : Criterion) :
    (ofValue literal make).operate field c = make field c.value := rfl

/-- The operator makes the same of a criterion under every key. -/
def IgnoresKey (o : Operator) : Prop :=
  ∀ (field : Field) (c : Criterion) (key : String), o.operate field { c with key } = o.operate field c

theorem ignoresKey_ofValue (make : Field → Value → Except Cause Filter) :
    (ofValue literal make).IgnoresKey := fun _ _ _ => rfl

/-- The operator tests the field that it is applied to and no other. -/
def TestsItsField (o : Operator) : Prop :=
  ∀ {field : Field} {c : Criterion} {p : Predicate}, o.operate field c = .ok (.restricted p) →
    p.fields = [field]

theorem equalTo_fields (h : equalTo field value = .ok (.restricted p)) : p.fields = [field] := by
  obtain ⟨v, _, hp⟩ := bind_eq_ok_iff.mp h
  cases hp
  rfl

/-- The operators for parts of texts differ in the pattern only. -/
theorem like_or_equalTo_fields {pattern : String} {ignoreCase : Bool}
    (h : (if field.type.isText then .ok (.restricted (.like field pattern ignoreCase))
      else equalTo field value) = .ok (.restricted p)) : p.fields = [field] := by
  split at h
  · cases h
    rfl
  · exact equalTo_fields h

theorem hasMember_fields (h : hasMember field value = .ok (.restricted p)) : p.fields = [field] := by
  unfold hasMember at h
  split at h
  · exact like_or_equalTo_fields h
  · split at h
    · obtain ⟨v, _, hp⟩ := bind_eq_ok_iff.mp h
      cases hp
      rfl
    · cases h

theorem bounded_fields {restrict : Field → Value → Predicate}
    (hr : ∀ v, (restrict field v).fields = [field])
    (h : bounded restrict field value = .ok (.restricted p)) : p.fields = [field] := by
  unfold bounded at h
  split at h
  · split at h
    · cases h
      exact hr _
    · cases h
  · cases h
    rfl

theorem assigned_testsItsField : assigned.TestsItsField := by
  intro field c p h
  obtain ⟨member, _, h⟩ := bind_eq_ok_iff.mp h
  obtain ⟨v, _, hp⟩ := bind_eq_ok_iff.mp h
  cases hp
  rfl

end Operator

theorem Registry.standard_ignoresKey {literal : String} {o : Operator}
    (h : standard.get? literal = some o) : o.IgnoresKey := by
  have hm := mem_of_get?_ofList h
  simp only [List.mem_cons, List.not_mem_nil, or_false] at hm
  rcases hm with rfl | rfl | rfl | rfl | rfl | rfl <;> exact Operator.ignoresKey_ofValue _

theorem Registry.standard_testsItsField {literal : String} {o : Operator}
    (h : standard.get? literal = some o) : o.TestsItsField := by
  have hm := mem_of_get?_ofList h
  simp only [List.mem_cons, List.not_mem_nil, or_false] at hm
  intro field c p hp
  rcases hm with rfl | rfl | rfl | rfl | rfl | rfl
  · exact Operator.equalTo_fields hp
  · exact Operator.like_or_equalTo_fields hp
  · exact Operator.like_or_equalTo_fields hp
  · exact Operator.hasMember_fields hp
  · exact Operator.bounded_fields (fun _ => rfl) hp
  · exact Operator.bounded_fields (fun _ => rfl) hp

end RecordSearch

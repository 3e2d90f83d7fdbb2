import RecordSearch.Proofs.Predicate.Fields
import RecordSearch.Proofs.Query.Compile

/-!
# Renamed keys

A public key stands for a path. The path is followed as it is written if it is a single segment, whatever else
that segment is a key for, and if no segment of it is a key for something else. If one is, it is renamed
again, and the criterion goes astray: to another field, or to none.
-/

namespace RecordSearch

variable {d : Descriptor} {registry : Registry} {c : Criterion} {target name : String} {field : Field}

/-- The path that a name is written as, its segments as they stand. -/
def writtenPath (name : String) : List String := (Text.segments '.' name.toList).map String.ofList

theorem writtenPath_inj {name other : String} (h : writtenPath name = writtenPath other) : name = other := by
  have hsegments := (List.map_inj_right fun _ _ => String.ofList_inj.mp).mp h
  have hjoined := congrArg (Text.join '.') hsegments
  rw [Text.join_segments, Text.join_segments] at hjoined
  exact String.toList_inj.mp hjoined

theorem writtenPath_of_not_mem (h : '.' ∉ name.toList) : writtenPath name = [name] := by
  rw [writtenPath, Text.segments_of_not_mem h, List.map_singleton, String.ofList_toList]

namespace Descriptor

/-- No segment of the name is a key for something else. A name that is one segment is not looked up again. -/
def Settled (d : Descriptor) (name : String) : Prop :=
  '.' ∈ name.toList → ∀ segment ∈ writtenPath name, d.mappedKey segment = segment

instance (d : Descriptor) (name : String) : Decidable (d.Settled name) :=
  inferInstanceAs (Decidable (_ → _))

theorem pathOf_of_dotted (h : '.' ∈ name.toList) : d.pathOf name = (writtenPath name).map d.mappedKey := by
  rw [pathOf_of_mem h, writtenPath, List.map_map]
  rfl

/-- The path that a name is followed as is the written one just if the name is settled. -/
theorem pathOf_eq_writtenPath_iff : d.pathOf name = writtenPath name ↔ d.Settled name := by
  by_cases h : '.' ∈ name.toList
  · rw [pathOf_of_dotted h, Settled, forall_prop_of_true h]
    have hsame := List.map_inj_left (f := d.mappedKey) (g := id) (l := writtenPath name)
    rwa [List.map_id] at hsame
  · rw [pathOf_of_not_mem h, writtenPath_of_not_mem h]
    exact iff_of_true rfl fun hdot => absurd hdot h

theorem mappedKey_of_get? (h : d.renames.get? name = some target) : d.mappedKey name = target := by
  rw [mappedKey, h, Option.getD_some]

end Descriptor

namespace Criterion

/-- What becomes of a criterion whose key leads to the field: it fails if its value does not convert or its
operator is not known, and else it is what the operator makes of the field. -/
def GoesTo (c : Criterion) (d : Descriptor) (registry : Registry) (field : Field) : Prop :=
  match d.convertValue (d.mappedKey c.key) c.value,
      d.operatorFor? (d.mappedKey c.key) c.operator registry with
  | .error cause, _ => c.compile d registry = .error (.criterion c.key c.operator cause)
  | .ok _, none => c.compile d registry = .error (.unknownOperator c.operator)
  | .ok value, some o =>
      c.compile d registry = (o.operate field { c with value }).mapError (.criterion c.key c.operator)

theorem goesTo_of_resolve (hs : d.supports c.operator = true)
    (hf : d.scope.resolve (d.pathOf (d.mappedKey c.key)) = .ok field) : c.GoesTo d registry field := by
  unfold GoesTo
  split
  · next cause hvalue => exact compile_of_rejected hvalue
  · next value hvalue ho => exact compile_of_unknown hs hvalue hf ho
  · next value o hvalue ho => exact compile_of_operator hs hvalue hf ho

/-- A criterion that leads to a field tests that field, if its operator tests the field that it is applied
to. -/
theorem GoesTo.fields {p : Predicate} (h : c.GoesTo d registry field)
    (ho : ∀ o, d.operatorFor? (d.mappedKey c.key) c.operator registry = some o → o.TestsItsField)
    (hp : c.compile d registry = .ok (.restricted p)) : p.fields = [field] := by
  unfold GoesTo at h
  split at h
  · rw [hp] at h
    cases h
  · rw [hp] at h
    cases h
  · next o _ hoperator =>
    rw [hp] at h
    exact ho o hoperator (mapError_eq_ok_iff.mp h.symm)

/-- A criterion by a public key, with an operator that is accepted, leads to the field that the key was
renamed to if the name of that field is settled: its compilation does not fail for lack of the field, and a
predicate that comes of it tests this field and no other. If the name is not settled the criterion leads to a
field with another path, or is refused if there is none. The operators there are test the fields that they are
applied to. -/
theorem compile_renamed (hr : d.renames.get? c.key = some target)
    (hf : d.scope.resolve (writtenPath target) = .ok field) (hs : d.supports c.operator = true) :
    (d.Settled target → c.GoesTo d registry field) ∧
    (¬ d.Settled target → d.pathOf target ≠ field.path ∧
      ((∃ other, d.scope.resolve (d.pathOf target) = .ok other ∧ c.GoesTo d registry other) ∨
        ∃ e, d.scope.resolve (d.pathOf target) = .error e ∧
          ∀ value, d.convertValue target c.value = .ok value →
            c.compile d registry = .error (.criterion c.key c.operator (.field e)))) ∧
    (∀ other p, c.GoesTo d registry other →
      (∀ o, d.operatorFor? target c.operator registry = some o → o.TestsItsField) →
        c.compile d registry = .ok (.restricted p) → p.fields = [other]) ∧
    (∀ literal o, Registry.standard.get? literal = some o → o.TestsItsField) ∧
    Operator.assigned.TestsItsField := by
  have hmapped := Descriptor.mappedKey_of_get? hr
  refine ⟨fun hsettled => ?_, fun hsettled => ⟨?_, ?_⟩, fun other p h ho hp => ?_,
    fun _ _ => Registry.standard_testsItsField, Operator.assigned_testsItsField⟩
  · refine goesTo_of_resolve hs ?_
    rw [hmapped, Descriptor.pathOf_eq_writtenPath_iff.mpr hsettled]
    exact hf
  · rw [FieldTable.path_of_resolve hf]
    exact fun h => hsettled (Descriptor.pathOf_eq_writtenPath_iff.mp h)
  · cases hother : d.scope.resolve (d.pathOf target) with
    | ok other => exact .inl ⟨other, rfl, goesTo_of_resolve hs (hmapped ▸ hother)⟩
    | error e =>
        exact .inr ⟨e, rfl, fun value hvalue =>
          compile_of_unresolved hs (hmapped ▸ hother) (hmapped ▸ hvalue)⟩
  · exact h.fields (hmapped ▸ ho) hp

/-- A key for a key, and one for a field inside another. -/
theorem compile_renamed_chain :
    let d := Entity.applications.descriptor.rename "author" "user.name"
    d.renames.get? "dbId" = some "id" ∧ d.renames.get? "id" = some "applicationId" ∧
      (∃ p, compile ⟨"dbId", "<", .text "5", false⟩ d .standard = .ok (.restricted p) ∧
        p.fields = [⟨["id"], .integer⟩]) ∧
      ∃ q, compile ⟨"author", ":", .text "Al", false⟩ d .standard = .ok (.restricted q) ∧
        q.fields = [⟨["user", "name"], .text⟩] := by
  intro d
  let byNumber : Criterion := ⟨"dbId", "<", .text "5", false⟩
  let byAuthor : Criterion := ⟨"author", ":", .text "Al", false⟩
  obtain ⟨hnumber, _, hfields, hstandard, _⟩ :=
    @compile_renamed d .standard byNumber "id" ⟨["id"], .integer⟩ rfl rfl (by decide)
  obtain ⟨hauthor, _, hfields', _⟩ :=
    @compile_renamed d .standard byAuthor "user.name" ⟨["user", "name"], .text⟩ rfl rfl (by decide)
  have hnumber := hnumber (by decide)
  have hauthor := hauthor (by decide)
  have hbyNumber : byNumber.compile d .standard = .ok (.restricted (.atMost _ (.text "5"))) := hnumber
  have hbyAuthor : byAuthor.compile d .standard =
      .ok (.restricted (.like _ (Operator.containing "Al".toList) false)) := hauthor
  exact ⟨rfl, rfl, ⟨_, hbyNumber, hfields _ _ hnumber (fun o => hstandard "<" o) hbyNumber⟩,
    _, hbyAuthor, hfields' _ _ hauthor (fun o => hstandard ":" o) hbyAuthor⟩

/-- A segment of the path that a key stands for is renamed again: the criterion tests another field, or is
refused for a field that nobody asked for. -/
theorem compile_renames_again :
    let d := (Entity.users.descriptor.rename "job" "role.name").rename "name" "description"
    let e := Entity.applications.descriptor.rename "job" "user.role.id"
    d.renames.get? "job" = some "role.name" ∧
      d.scope.resolve (writtenPath "role.name") = .ok ⟨["role", "name"], .text⟩ ∧
      compile ⟨"job", "=", .text "admin", false⟩ d .standard =
        .ok (.restricted (.equals ⟨["role", "description"], .text⟩ (.text "admin"))) ∧
      e.renames.get? "job" = some "user.role.id" ∧
      e.scope.resolve (writtenPath "user.role.id") = .ok ⟨["user", "role", "id"], .integer⟩ ∧
      compile ⟨"job", "=", .text "7", false⟩ e .standard =
        .error (.criterion "job" "=" (.field (.unknown "applicationId" ["user", "role"]))) :=
  ⟨rfl, rfl, rfl, rfl, rfl, rfl⟩

end Criterion

end RecordSearch

import RecordSearch.Entity
import RecordSearch.Proofs.Outcome
import RecordSearch.Proofs.Text

/-!
# Outcomes of compilation

What it takes for a criterion, a list of criteria and a query to compile, what a criterion fails for, and the
induction principle for the filters that lists of criteria compile to.
-/

namespace RecordSearch

variable {d : Descriptor} {registry : Registry} {f : Filter}

/-- A key without dots is a path of its own. -/
theorem Descriptor.pathOf_of_not_mem {mapped : String} (h : '.' ∉ mapped.toList) :
    d.pathOf mapped = [mapped] := by
  rw [pathOf, Text.segments_of_not_mem h]

/-- The segments of a key with dots are public keys. -/
theorem Descriptor.pathOf_of_mem {mapped : String} (h : '.' ∈ mapped.toList) :
    d.pathOf mapped = (Text.segments '.' mapped.toList).map fun s => d.mappedKey (String.ofList s) := by
  unfold pathOf
  split
  · next segment hsegments =>
    have hwhole := Text.join_segments '.' mapped.toList
    rw [hsegments, Text.join] at hwhole
    rw [← hwhole] at h
    exact absurd h (Text.not_mem_of_mem_segments (hsegments ▸ List.mem_singleton_self segment))
  · rfl

/-- A criterion compiles if its value converts and either its operator is not taken, or the field and the
operator are found and the operator makes a filter of the field and the criterion with that value. -/
theorem Criterion.compile_eq_ok_iff {c : Criterion} :
    c.compile d registry = .ok f ↔
      ∃ value, d.convertValue (d.mappedKey c.key) c.value = .ok value ∧
        (d.supports c.operator = false ∧ f = .unrestricted ∨
          d.supports c.operator = true ∧ ∃ field o,
            d.scope.resolve (d.pathOf (d.mappedKey c.key)) = .ok field ∧
            d.operatorFor? (d.mappedKey c.key) c.operator registry = some o ∧
            o.operate field { c with value } = .ok f) := by
  simp only [compile, bind_eq_ok_iff, mapError_eq_ok_iff]
  refine exists_congr fun value => and_congr_right fun _ => ?_
  cases hs : d.supports c.operator with
  | false => simp [eq_comm]
  | true =>
      simp only [not_true_eq_false, if_false, bind_eq_ok_iff, mapError_eq_ok_iff, reduceCtorEq, false_and,
        true_and, false_or]
      refine exists_congr fun field => ?_
      cases d.operatorFor? (d.mappedKey c.key) c.operator registry with
      | none => simp
      | some o => simp [mapError_eq_ok_iff]

/-- A value that does not convert fails its criterion, whatever the operator. -/
theorem Criterion.compile_of_rejected {c : Criterion} {cause : Cause}
    (h : d.convertValue (d.mappedKey c.key) c.value = .error cause) :
    c.compile d registry = .error (.criterion c.key c.operator cause) := by
  rw [compile, h]
  rfl

/-- An operator that is not taken drops its criterion once the value has converted. -/
theorem Criterion.compile_of_unsupported {c : Criterion} {value : Value}
    (hs : d.supports c.operator = false)
    (h : d.convertValue (d.mappedKey c.key) c.value = .ok value) :
    c.compile d registry = .ok .unrestricted :=
  compile_eq_ok_iff.mpr ⟨value, h, .inl ⟨hs, rfl⟩⟩

theorem Criterion.compile_of_unresolved {c : Criterion} {value : Value} {e : FieldError}
    (hs : d.supports c.operator = true) (hf : d.scope.resolve (d.pathOf (d.mappedKey c.key)) = .error e)
    (hvalue : d.convertValue (d.mappedKey c.key) c.value = .ok value) :
    c.compile d registry = .error (.criterion c.key c.operator (.field e)) := by
  simp only [compile, hvalue, hs, hf]
  rfl

theorem Criterion.compile_of_unknown {c : Criterion} {value : Value} {field : Field}
    (hs : d.supports c.operator = true) (hvalue : d.convertValue (d.mappedKey c.key) c.value = .ok value)
    (hf : d.scope.resolve (d.pathOf (d.mappedKey c.key)) = .ok field)
    (ho : d.operatorFor? (d.mappedKey c.key) c.operator registry = none) :
    c.compile d registry = .error (.unknownOperator c.operator) := by
  simp only [compile, hvalue, hs, hf, ho]
  rfl

theorem Criterion.compile_of_operator {c : Criterion} {value : Value} {field : Field} {o : Operator}
    (hs : d.supports c.operator = true) (hvalue : d.convertValue (d.mappedKey c.key) c.value = .ok value)
    (hf : d.scope.resolve (d.pathOf (d.mappedKey c.key)) = .ok field)
    (ho : d.operatorFor? (d.mappedKey c.key) c.operator registry = some o) :
    c.compile d registry = (o.operate field { c with value }).mapError (.criterion c.key c.operator) := by
  simp only [compile, hvalue, hs, hf, ho]
  rfl

/-- A criterion fails if its value does not convert or, its operator being taken, there is no such field, the
operator is not known or it refuses the field or the value. -/
theorem Criterion.compile_eq_error_iff {c : Criterion} {e : SearchError} :
    c.compile d registry = .error e ↔
      (∃ cause, d.convertValue (d.mappedKey c.key) c.value = .error cause ∧
        .criterion c.key c.operator cause = e) ∨
      ∃ value, d.convertValue (d.mappedKey c.key) c.value = .ok value ∧ d.supports c.operator = true ∧
        ((∃ unresolved, d.scope.resolve (d.pathOf (d.mappedKey c.key)) = .error unresolved ∧
            .criterion c.key c.operator (.field unresolved) = e) ∨
          ∃ field, d.scope.resolve (d.pathOf (d.mappedKey c.key)) = .ok field ∧
            (d.operatorFor? (d.mappedKey c.key) c.operator registry = none ∧ .unknownOperator c.operator = e ∨
              ∃ o, d.operatorFor? (d.mappedKey c.key) c.operator registry = some o ∧
                ∃ cause, o.operate field { c with value } = .error cause ∧
                  .criterion c.key c.operator cause = e)) := by
  cases hvalue : d.convertValue (d.mappedKey c.key) c.value with
  | error cause => simp [compile_of_rejected hvalue]
  | ok value =>
      cases hs : d.supports c.operator with
      | false => simp [compile_of_unsupported hs hvalue]
      | true =>
          cases hf : d.scope.resolve (d.pathOf (d.mappedKey c.key)) with
          | error unresolved => simp [compile_of_unresolved hs hf hvalue]
          | ok field =>
              cases ho : d.operatorFor? (d.mappedKey c.key) c.operator registry with
              | none => simp [compile_of_unknown hs hvalue hf ho]
              | some o => simp [compile_of_operator hs hvalue hf ho, mapError_eq_error_iff]

namespace Query

/-- A property of filters that holds of the filter of each criterion and is kept by both ways of joining
holds of the filter of a list of criteria. -/
theorem buildFrom_induction {descriptors : Nat → Option Descriptor} {P : Filter → Prop}
    (hu : P .unrestricted) (hand : ∀ {f g}, P f → P g → P (f.and g))
    (hor : ∀ {f g}, P f → P g → P (f.or g)) {asked : Nat} {running : Option Filter}
    {criteria : List Criterion}
    (hc : ∀ c ∈ criteria, ∀ n d f, descriptors n = some d → c.compile d registry = .ok f → P f)
    (hr : ∀ g, running = some g → P g)
    (h : (buildFrom descriptors registry asked running criteria).2 = .ok f) : P f := by
  induction criteria generalizing asked running with
  | nil =>
      cases h
      cases running with
      | none => exact hu
      | some g => exact hr g rfl
  | cons c rest ih =>
      have hrest : ∀ c' ∈ rest, ∀ n d f, descriptors n = some d → c'.compile d registry = .ok f → P f :=
        fun c' hm => hc c' (List.mem_cons_of_mem _ hm)
      rw [buildFrom] at h
      split at h
      · exact ih hrest hr h
      · next d hd =>
          split at h
          · cases h
          · next g hg =>
              have hg := hc c List.mem_cons_self _ _ _ hd hg
              refine ih hrest (fun k hk => ?_) h
              cases hk
              cases running with
              | none => exact hg
              | some first =>
                  unfold joined
                  dsimp only
                  split
                  · exact hor (hr first rfl) hg
                  · exact hand (hr first rfl) hg

/-- With one descriptor for all criteria the first of them is compiled, and then the others on top of it. -/
theorem buildFrom_cons {asked : Nat} {running : Option Filter} {c : Criterion} {rest : List Criterion} :
    (buildFrom (fun _ => some d) registry asked running (c :: rest)).2 =
      c.compile d registry >>= fun g =>
        (buildFrom (fun _ => some d) registry (asked + 1)
          (some (joined running g c.orWithPrevious)) rest).2 := by
  rw [buildFrom]
  dsimp only
  cases c.compile d registry <;> rfl

theorem buildFrom_cons_eq_ok_iff {asked : Nat} {running : Option Filter} {c : Criterion}
    {rest : List Criterion} :
    (buildFrom (fun _ => some d) registry asked running (c :: rest)).2 = .ok f ↔
      ∃ g, c.compile d registry = .ok g ∧
        (buildFrom (fun _ => some d) registry (asked + 1)
          (some (joined running g c.orWithPrevious)) rest).2 = .ok f := by
  rw [buildFrom_cons, bind_eq_ok_iff]

end Query

theorem Entity.grammar_cases (entity : Entity) :
    entity.descriptor.grammar = .user ∨ entity.descriptor.grammar = .application := by
  cases entity with
  | accounts | users => exact .inl rfl
  | _ => exact .inr rfl

theorem Entity.compile_eq_ok_iff {entity : Entity} {query : String} {byOr : Bool} {scope : Scope} :
    entity.compile query byOr = .ok (scope, f) ↔
      scope = entity.descriptor.scope ∧
        (Query.build (Query.parse entity.descriptor.grammar query byOr)
          (fun _ => some entity.descriptor) .standard).2 = .ok f := by
  simp only [compile, compileWith, bind_eq_ok_iff, Except.ok.injEq, Prod.mk.injEq]
  constructor
  · rintro ⟨g, hg, rfl, rfl⟩
    exact ⟨rfl, hg⟩
  · rintro ⟨rfl, h⟩
    exact ⟨f, h, rfl, rfl⟩

/-- The criteria of a query string decide what it compiles to. -/
theorem Entity.compile_of_parse {entity : Entity} {query : String} {byOr : Bool}
    {criteria : List Criterion} (hp : Query.parse entity.descriptor.grammar query byOr = criteria)
    (hf : (Query.build criteria (fun _ => some entity.descriptor) .standard).2 = .ok f) :
    entity.compile query byOr = .ok (entity.descriptor.scope, f) := by
  subst hp
  exact compile_eq_ok_iff.mpr ⟨rfl, hf⟩

end RecordSearch

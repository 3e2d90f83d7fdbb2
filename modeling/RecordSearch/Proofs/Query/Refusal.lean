import RecordSearch.Proofs.Query.Criteria
import RecordSearch.Proofs.Query.Dropped
import RecordSearch.Proofs.Query.Segmentation

/-!
# Queries that are refused

The operators of a query language are accepted by the searches that use it, and the registry knows them all. So
a query is refused only for a criterion that does not compile, and the error names the first of these.
-/

namespace RecordSearch

namespace Query

variable {d : Descriptor} {registry : Registry} {grammar : Grammar} {gs : List Group} {s : List Char}
  {raw : String} {byOr : Bool} {c : Criterion} {criteria : List Criterion} {e : SearchError}

/-! ## Operators of criteria -/

theorem Segmented.wellFormed (h : Segmented grammar s gs) : ∀ g ∈ gs, g.WellFormed grammar := by
  induction h with
  | last _ => exact List.forall_mem_nil _
  | group _ hlead _ ih => exact List.forall_mem_cons.mpr ⟨hlead.wellFormed, ih⟩

theorem operator_mem_of_mem_parse (hg : grammar.Separated) (h : c ∈ parse grammar raw byOr) :
    c.operator.toList ∈ grammar.operators := by
  obtain ⟨g, hgroup, rfl⟩ := List.mem_map.mp h
  have hw := (segmented_groups hg (raw.toList ++ [','])).wellFormed g hgroup
  rw [Group.criterion, String.toList_ofList]
  exact hw.operator

/-! ## The first criterion that does not compile -/

theorem exists_first_error (h : ¬ ∀ c ∈ criteria, ∃ f, c.compile d registry = .ok f) :
    ∃ before c after e, criteria = before ++ c :: after ∧
      (∀ b ∈ before, ∃ f, b.compile d registry = .ok f) ∧ c.compile d registry = .error e := by
  induction criteria with
  | nil => exact absurd (List.forall_mem_nil _) h
  | cons c rest ih =>
      cases hc : c.compile d registry with
      | error e => exact ⟨[], c, rest, e, rfl, List.forall_mem_nil _, hc⟩
      | ok f =>
          rw [List.forall_mem_cons, not_and] at h
          obtain ⟨before, c', after, e, rfl, hbefore, hc'⟩ := ih (h ⟨f, hc⟩)
          exact ⟨c :: before, c', after, e, rfl, List.forall_mem_cons.mpr ⟨⟨f, hc⟩, hbefore⟩, hc'⟩

theorem build_eq_error_iff :
    (build criteria (fun _ => some d) registry).2 = .error e ↔
      ∃ before c after, criteria = before ++ c :: after ∧
        (∀ b ∈ before, ∃ f, b.compile d registry = .ok f) ∧ c.compile d registry = .error e := by
  have hfirst : ∀ before c after e, (∀ b ∈ before, ∃ f, b.compile d registry = .ok f) →
      c.compile d registry = .error e →
        (build (before ++ c :: after) (fun _ => some d) registry).2 = .error e := by
    intro before c after e hbefore hc
    obtain ⟨f, hf⟩ := exists_build_iff.mpr hbefore
    rw [build] at hf ⊢
    rw [buildFrom_insert_error hc, hf]
    rfl
  constructor
  · intro h
    have hsome : ¬ ∀ c ∈ criteria, ∃ f, c.compile d registry = .ok f := by
      intro hall
      obtain ⟨f, hf⟩ := exists_build_iff.mpr hall
      rw [hf] at h
      cases h
    obtain ⟨before, c, after, e', rfl, hbefore, hc⟩ := exists_first_error hsome
    rw [hfirst before c after e' hbefore hc] at h
    cases h
    exact ⟨before, c, after, rfl, hbefore, hc⟩
  · rintro ⟨before, c, after, rfl, hbefore, hc⟩
    exact hfirst before c after e hbefore hc

end Query

/-- An error of a criterion whose operator is registered names the criterion, by its own key. -/
theorem Criterion.exists_cause {c : Criterion} {d : Descriptor} {registry : Registry} {e : SearchError}
    {registered : Operator} (ho : registry.get? c.operator = some registered)
    (h : c.compile d registry = .error e) : ∃ cause, e = .criterion c.key c.operator cause := by
  obtain ⟨cause, _, rfl⟩ | ⟨_, _, _, ⟨unresolved, _, rfl⟩ | ⟨_, _, ⟨hnone, _⟩ | ⟨_, _, cause, _, rfl⟩⟩⟩ :=
    compile_eq_error_iff.mp h
  · exact ⟨cause, rfl⟩
  · exact ⟨.field unresolved, rfl⟩
  · -- The registry would have been asked for the operator.
    rw [Descriptor.operatorFor?, ho, Option.or_eq_none_iff] at hnone
    exact absurd hnone.2 (by simp)
  · exact ⟨cause, rfl⟩

namespace Entity

variable {entity : Entity} {query : String} {byOr : Bool} {c : Criterion}

/-- What a query language can say is accepted, and the registry has an operator for it. -/
theorem operator_cases (h : c ∈ Query.parse entity.descriptor.grammar query byOr) :
    entity.descriptor.supports c.operator = true ∧
      ∃ registered, Registry.standard.get? c.operator = some registered := by
  have hall : ∀ literal ∈ entity.descriptor.grammar.operators,
      entity.descriptor.supports (String.ofList literal) = true ∧
        (Registry.standard.get? (String.ofList literal)).isSome = true := by
    cases entity <;> decide
  have hmem := Query.operator_mem_of_mem_parse (Grammar.separated entity.grammar_cases) h
  obtain ⟨hsupports, hregistered⟩ := hall _ hmem
  rw [String.ofList_toList] at hsupports hregistered
  exact ⟨hsupports, Option.isSome_iff_exists.mp hregistered⟩

theorem compile_eq_error_iff {e : SearchError} :
    entity.compile query byOr = .error e ↔
      (Query.build (Query.parse entity.descriptor.grammar query byOr)
        (fun _ => some entity.descriptor) .standard).2 = .error e := by
  rw [compile, compileWith]
  cases (Query.build (Query.parse entity.descriptor.grammar query byOr)
    (fun _ => some entity.descriptor) .standard).2 with
  | error e' => simp [bind, Except.bind]
  | ok f => simp [bind, Except.bind]

/-- No criterion of a query string is dropped for its operator. The query compiles just if each of its criteria
does. If it does not, the error is for the first criterion that does not compile, and names it by the key and
the operator that are written in the query. -/
theorem compile_refused (entity : Entity) (query : String) (byOr : Bool) :
    (∀ c ∈ Query.parse entity.descriptor.grammar query byOr,
      entity.descriptor.supports c.operator = true) ∧
    ((∃ f, entity.compile query byOr = .ok (entity.descriptor.scope, f)) ↔
      ∀ c ∈ Query.parse entity.descriptor.grammar query byOr,
        ∃ f, c.compile entity.descriptor .standard = .ok f) ∧
    ∀ e, entity.compile query byOr = .error e ↔
      ∃ before c after cause, Query.parse entity.descriptor.grammar query byOr = before ++ c :: after ∧
        (∀ b ∈ before, ∃ f, b.compile entity.descriptor .standard = .ok f) ∧
        c.compile entity.descriptor .standard = .error (.criterion c.key c.operator cause) ∧
        e = .criterion c.key c.operator cause := by
  refine ⟨fun c hc => (operator_cases hc).1, ?_, fun e => ?_⟩
  · rw [← exists_compile_iff]
    constructor
    · rintro ⟨f, h⟩
      exact ⟨_, h⟩
    · rintro ⟨⟨scope, f⟩, h⟩
      obtain ⟨rfl, _⟩ := compile_eq_ok_iff.mp h
      exact ⟨f, h⟩
  · rw [compile_eq_error_iff, Query.build_eq_error_iff]
    constructor
    · rintro ⟨before, c, after, hparse, hbefore, hc⟩
      have hmem : c ∈ Query.parse entity.descriptor.grammar query byOr := by
        rw [hparse]
        exact List.mem_append_right _ List.mem_cons_self
      obtain ⟨_, registered, hregistered⟩ := operator_cases hmem
      obtain ⟨cause, rfl⟩ := Criterion.exists_cause hregistered hc
      exact ⟨before, c, after, cause, hparse, hbefore, hc, rfl⟩
    · rintro ⟨before, c, after, cause, hparse, hbefore, hc, rfl⟩
      exact ⟨before, c, after, hparse, hbefore, hc⟩

/-- The second criterion is refused under the public key that was written, and the third, which would be
refused as well, is not reached. -/
theorem compile_refused_number :
    Query.parse .application "id:A,dbId=x,nope=1" false =
        [⟨"id", ":", .text "A", false⟩, ⟨"dbId", "=", .text "x", false⟩, ⟨"nope", "=", .text "1", false⟩] ∧
      applications.descriptor.supports "=" = true ∧
      applications.compile "id:A,dbId=x,nope=1" false =
        .error (.criterion "dbId" "=" (.value (.notInteger "x"))) := by
  have hparse : Query.parse .application "id:A,dbId=x,nope=1" false =
      [⟨"id", ":", .text "A", false⟩, ⟨"dbId", "=", .text "x", false⟩, ⟨"nope", "=", .text "1", false⟩] := by
    cbv
  obtain ⟨hsupports, _, herror⟩ := compile_refused applications "id:A,dbId=x,nope=1" false
  refine ⟨hparse, ?_, (herror _).mpr ⟨[⟨"id", ":", .text "A", false⟩], ⟨"dbId", "=", .text "x", false⟩,
    [⟨"nope", "=", .text "1", false⟩], .value (.notInteger "x"), hparse, ?_, rfl, rfl⟩⟩
  · exact hsupports ⟨"dbId", "=", .text "x", false⟩ (hparse ▸ by simp)
  · intro b hb
    rw [List.mem_singleton] at hb
    subst hb
    exact ⟨_, rfl⟩

end Entity

end RecordSearch

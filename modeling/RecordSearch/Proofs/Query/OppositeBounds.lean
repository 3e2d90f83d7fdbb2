import RecordSearch.Proofs.Query.Bounds
import RecordSearch.Proofs.Query.Equality

/-!
# Bounds from both sides

On a field for points in time the two bounds at one point and the test for equality with it fit together: of
the records with a value there each satisfies one of the bounds, and those that satisfy both are the ones that
hold that very point. On all other fields the two operators for bounds are one: both give an upper bound.
-/

namespace RecordSearch

/-! ## Records -/

section

variable {r : Record} {scope : Scope} {path : List String} {field : Field}

/-- A record satisfies one of two opposite bounds if it has a value for them, and both if it has their value. -/
theorem Record.satisfies_bounds (hr : r.inScope scope = true) (hf : scope.resolve path = .ok field)
    (ht : field.type = .timestamp) (bound : Timestamp) :
    let lower : Filter := .restricted (.atLeast field (.timestamp bound))
    let upper : Filter := .restricted (.atMost field (.timestamp bound))
    (lower.accepts r.toJson = true ∨ upper.accepts r.toJson = true ↔
      ∃ t : Timestamp, r.content.read field.path = some (.scalar (.timestamp t))) ∧
    (lower.accepts r.toJson = true ∧ upper.accepts r.toJson = true ↔
      (Filter.restricted (.equals field (.timestamp bound))).accepts r.toJson = true) := by
  intro lower upper
  have hequals := Filter.accepts_equals (v := .timestamp bound) hr hf (by rw [ht]; trivial)
  rw [hequals]
  obtain ⟨t, hread, hlookup⟩ | ⟨hlookup, hread⟩ := Record.timestamp_cases hr hf ht
  · rw [Filter.accepts_atLeast hlookup, Filter.accepts_atMost hlookup, hread]
    have hsame : (∃ w, some (Content.scalar (.timestamp t)) = some (.scalar w) ∧ w.Same (.timestamp bound)) ↔
        t.instant = bound.instant := by
      simp [Value.Same]
    rw [hsame]
    refine ⟨iff_of_true ?_ ⟨t, rfl⟩, ?_⟩
    · split <;> omega
    · split <;> omega
  · have hlower : lower.accepts r.toJson = false := by
      simp [lower, Filter.accepts, Predicate.eval, hlookup]
    have hupper : upper.accepts r.toJson = false := by
      simp [upper, Filter.accepts, Predicate.eval, hlookup]
    simp [hlower, hupper, hread]

end

/-! ## Criteria -/

/-- A name of a status is converted to the status of that name. -/
theorem Converter.display_of_status {value converted : Value} (h : status value = .ok converted) :
    converted.display = value.display := by
  cases value with
  | text raw =>
      unfold status at h
      dsimp only at h
      split at h
      · next s hs =>
        cases h
        exact ApplicationStatus.ofName?_eq_some_iff.mp hs
      · cases h
  | _ =>
      cases h
      rfl

namespace Entity

variable {entity : Entity} {key literal raw mapped : String} {field : Field} {value converted : Value}
  {bound : Timestamp} {f : Filter} {byOr : Bool}

/-- Conversions keep the texts of values. -/
theorem display_of_convertValue (h : entity.descriptor.convertValue mapped value = .ok converted) :
    converted.display = value.display := by
  by_cases hstatus : mapped = "status"
  · subst hstatus
    cases entity with
    | accounts | users =>
        cases h
        rfl
    | _ => exact Converter.display_of_status h
  · rw [entity.convertValue_eq hstatus] at h
    cases h
    rfl

theorem not_supports_bound (ha : ¬ entity.IsApplication) (hl : literal = "<" ∨ literal = ">") :
    entity.descriptor.supports literal = false := by
  cases entity with
  | accounts | users => rcases hl with rfl | rfl <;> decide
  | _ => exact absurd rfl ha

/-- On a field that does not hold points in time both bounds are upper bounds on the text. -/
theorem compile_upper (ha : entity.IsApplication) (h : entity.Names key field) (ht : field.type ≠ .timestamp)
    (hc : entity.descriptor.convertValue (entity.descriptor.mappedKey key) value = .ok converted)
    (hl : literal = "<" ∨ literal = ">") (byOr : Bool) :
    entity.Compiles ⟨key, literal, value, byOr⟩ (.restricted (.atMost field (.text value.display))) := by
  have hs : ∃ restrict : Field → Value → Predicate,
      literal = "<" ∧ restrict = .atMost ∨ literal = ">" ∧ restrict = .atLeast := by
    rcases hl with rfl | rfl
    · exact ⟨_, .inl ⟨rfl, rfl⟩⟩
    · exact ⟨_, .inr ⟨rfl, rfl⟩⟩
  obtain ⟨restrict, hs⟩ := hs
  refine compile_bounded ha hs h hc ?_ byOr
  -- The side that was asked for is not looked at on such a field.
  rw [← display_of_convertValue hc]
  exact if_neg fun he => ht (FieldType.isTimestamp_iff.mp he)

/-- The bounds at a readable point in time and the test for equality with it compile in a search of
applications. -/
theorem compiles_around (ha : entity.IsApplication) (h : entity.Names key field) (ht : field.type = .timestamp)
    (hb : Timestamp.parse? raw.toList = some bound)
    (hf : (literal, f) ∈ [(">", .restricted (.atLeast field (.timestamp bound))),
      ("<", .restricted (.atMost field (.timestamp bound))),
      ("=", .restricted (.equals field (.timestamp bound)))]) (byOr : Bool) :
    entity.Compiles ⟨key, literal, .text raw, byOr⟩ f := by
  simp only [List.mem_cons, List.not_mem_nil, or_false, Prod.mk.injEq] at hf
  rcases hf with ⟨rfl, rfl⟩ | ⟨rfl, rfl⟩ | ⟨rfl, rfl⟩
  · exact compile_bound ha (.inr ⟨rfl, rfl⟩) h ht hb byOr
  · exact compile_bound ha (.inl ⟨rfl, rfl⟩) h ht hb byOr
  · refine compiles_equals_iff.mpr ⟨field, .timestamp bound, h, ?_, rfl⟩
    rw [ht, Value.coerce, hb]

/-- In a search of applications the bounds at a readable point in time and the test for equality with it
compile for every key of such points, as criteria and as queries of their own. A record of the scope satisfies
one of the bounds just if it has a value there, and both just if it passes the test. For every other key, and in
every search, the two operators for bounds have the same outcome: both are refused, for the same cause, or both
compile to the same filter, which among applications is an upper bound on the text of the field. -/
theorem bounds_consistent (h : entity.Names key field) :
    (entity.IsApplication → field.type = .timestamp →
      ∀ raw bound, Timestamp.parse? raw.toList = some bound → ∃ lower upper equal : Filter,
        (∀ literal f, (literal, f) ∈ [(">", lower), ("<", upper), ("=", equal)] → ∀ byOr,
          entity.Compiles ⟨key, literal, .text raw, byOr⟩ f ∧
          (Query.Group.Writable entity.descriptor.grammar ⟨key.toList, literal.toList, raw.toList⟩ →
            entity.compile (key ++ literal ++ raw) byOr = .ok (entity.descriptor.scope, f))) ∧
        ∀ r : Record, r.inScope entity.descriptor.scope = true →
          (lower.accepts r.toJson = true ∨ upper.accepts r.toJson = true ↔
            ∃ t : Timestamp, r.content.read field.path = some (.scalar (.timestamp t))) ∧
          (lower.accepts r.toJson = true ∧ upper.accepts r.toJson = true ↔ equal.accepts r.toJson = true)) ∧
    (field.type ≠ .timestamp → ∀ value byOr,
      (∃ f, (∀ literal, literal = "<" ∨ literal = ">" → entity.Compiles ⟨key, literal, value, byOr⟩ f) ∧
        (entity.IsApplication → f = .restricted (.atMost field (.text value.display)))) ∨
      ∃ cause, ∀ literal, literal = "<" ∨ literal = ">" →
        Criterion.compile ⟨key, literal, value, byOr⟩ entity.descriptor .standard =
          .error (.criterion key literal cause)) := by
  refine ⟨fun ha ht raw bound hb => ?_, fun ht value byOr => ?_⟩
  · refine ⟨_, _, _, fun literal f hf byOr => ?_, fun r hr => Record.satisfies_bounds hr h ht bound⟩
    have hc := compiles_around ha h ht hb hf byOr
    exact ⟨hc, fun hw => (compile_single_iff hw byOr).mpr hc⟩
  · cases hconvert : entity.descriptor.convertValue (entity.descriptor.mappedKey key) value with
    | error cause => exact .inr ⟨cause, fun literal _ => Criterion.compile_of_rejected hconvert⟩
    | ok converted =>
        left
        by_cases ha : entity.IsApplication
        · exact ⟨_, fun literal hl => compile_upper ha h ht hconvert hl byOr, fun _ => rfl⟩
        · exact ⟨.unrestricted,
            fun literal hl => Criterion.compile_of_unsupported (not_supports_bound ha hl) hconvert,
            fun he => absurd he ha⟩

/-- An application that was changed at noon and is not approved: all three tests for noon accept the change,
neither bound accepts the approval. -/
theorem bounds_consistent_noon :
    let noon : Timestamp := { date := { year := 2024, month := 3, day := 15 }
                              hour := 12, minute := 0, second := 0, nanosecond := 0 }
    let al : User := ⟨"al", "Al", "", none, ⟨7, "member", "", false⟩⟩
    let r : Record :=
      .application (.submitted ⟨1, "A-1", al, .review, none, noon⟩ ⟨[], [], none, none, none⟩)
    (∃ lower upper equal : Filter,
      submittedApplications.compile "lastUpdated>2024-03-15T12:00" false = .ok (.variant .submitted, lower) ∧
      submittedApplications.compile "lastUpdated<2024-03-15T12:00" false = .ok (.variant .submitted, upper) ∧
      submittedApplications.compile "lastUpdated=2024-03-15T12:00" false = .ok (.variant .submitted, equal) ∧
      lower.accepts r.toJson = true ∧ upper.accepts r.toJson = true ∧ equal.accepts r.toJson = true) ∧
    (∃ lower upper : Filter,
      submittedApplications.compile "approvalTime>2024-03-15T12:00" false = .ok (.variant .submitted, lower) ∧
      submittedApplications.compile "approvalTime<2024-03-15T12:00" false = .ok (.variant .submitted, upper) ∧
      lower.accepts r.toJson = false ∧ upper.accepts r.toJson = false) ∧
    ∃ f, submittedApplications.Compiles ⟨"status", ">", .text "REVIEW", false⟩ f ∧
      submittedApplications.Compiles ⟨"status", "<", .text "REVIEW", false⟩ f := by
  intro noon al r
  have hb : Timestamp.parse? "2024-03-15T12:00".toList = some noon := by decide
  have hwritable : ∀ key ∈ ["lastUpdated", "approvalTime"], ∀ literal ∈ [">", "<", "="],
      Query.Group.Writable .application ⟨key.toList, literal.toList, "2024-03-15T12:00".toList⟩ := by decide
  refine ⟨?_, ?_, ?_⟩
  · let field : Field := ⟨["lastUpdated"], .timestamp⟩
    obtain ⟨hbounds, _⟩ := @bounds_consistent .submittedApplications "lastUpdated" field rfl
    obtain ⟨lower, upper, equal, hcompile, haccepts⟩ := hbounds rfl rfl _ noon hb
    have hequal : submittedApplications.Compiles ⟨"lastUpdated", "=", .text "2024-03-15T12:00", false⟩ _ :=
      compiles_equals_iff.mpr ⟨field, .timestamp noon, rfl, by simp only [field, Value.coerce, hb], rfl⟩
    have hsame := Except.ok.inj (hequal.symm.trans (hcompile "=" equal (by simp) false).1)
    have hnoon : equal.accepts r.toJson = true := by
      rw [← hsame]
      exact (@Filter.accepts_equals r (.variant .submitted) ["lastUpdated"] field (.timestamp noon) rfl rfl
        trivial).mpr ⟨.timestamp noon, rfl, rfl⟩
    obtain ⟨hlower, hupper⟩ := (haccepts r rfl).2.mpr hnoon
    exact ⟨lower, upper, equal, (hcompile ">" _ (by simp) false).2 (hwritable _ (by simp) _ (by simp)),
      (hcompile "<" _ (by simp) false).2 (hwritable _ (by simp) _ (by simp)),
      (hcompile "=" _ (by simp) false).2 (hwritable _ (by simp) _ (by simp)), hlower, hupper, hnoon⟩
  · obtain ⟨hbounds, _⟩ :=
      @bounds_consistent .submittedApplications "approvalTime" ⟨["approvalTime"], .timestamp⟩ rfl
    obtain ⟨lower, upper, equal, hcompile, haccepts⟩ := hbounds rfl rfl _ noon hb
    have hnone : ¬ (lower.accepts r.toJson = true ∨ upper.accepts r.toJson = true) := by
      rw [(haccepts r rfl).1]
      rintro ⟨t, ht⟩
      cases ht
    rw [not_or, Bool.not_eq_true, Bool.not_eq_true] at hnone
    exact ⟨lower, upper, (hcompile ">" _ (by simp) false).2 (hwritable _ (by simp) _ (by simp)),
      (hcompile "<" _ (by simp) false).2 (hwritable _ (by simp) _ (by simp)), hnone⟩
  · obtain ⟨_, hother⟩ :=
      @bounds_consistent .submittedApplications "status" ⟨["status"], .enum ApplicationStatus.names⟩ rfl
    obtain ⟨f, hf, _⟩ | ⟨cause, hcause⟩ := hother (by rintro ⟨⟩) (.text "REVIEW") false
    · exact ⟨f, hf ">" (.inr rfl), hf "<" (.inl rfl)⟩
    · cases hcause ">" (.inr rfl)

end Entity

end RecordSearch

import RecordSearch.Proofs.Query.Printing
import RecordSearch.Proofs.Query.Typing
import RecordSearch.Proofs.Record.RoundTrip
import RecordSearch.Proofs.Timestamp.Order

/-!
# Equality of typed values

A test for equality accepts a record as the value that the record holds in that field is the one that the
text of the criterion stands for, in whatever form it was written. On fields that are not text the operators
for parts of texts are this test, too.
-/

namespace RecordSearch

/-! ## Values -/

namespace Value

variable {v w : Value} {type : FieldType}

/-- The same text, number, truth value or member of an enumeration, or the same instant. -/
def Same : Value → Value → Prop
  | .text s, .text t => s = t
  | .integer m, .integer n => m = n
  | .boolean a, .boolean b => a = b
  | .enum a, .enum b => a = b
  | .timestamp t, .timestamp u => t.instant = u.instant
  | _, _ => False

theorem same_iff : v.Same w ↔ v = w := by
  cases v <;> cases w <;> simp [Same, Timestamp.instant_inj]

/-- Different values of one type are stored differently. -/
theorem isStoredAs_toJson_iff (hv : v.HasType type) (hw : w.HasType type) :
    w.isStoredAs v.toJson = true ↔ v = w := by
  cases v with
  | text s =>
      cases w <;> cases type <;> simp only [HasType] at hv hw
      simp [isStoredAs, toJson, Json.text?]
  | integer n =>
      cases w <;> cases type <;> simp only [HasType] at hv hw
      simp [isStoredAs, toJson, int64Json, Json.ofInt, Json.int64?, Json.Number.toInt64?_toInt]
  | boolean b =>
      cases w <;> cases type <;> simp only [HasType] at hv hw
      simp [isStoredAs, toJson, Json.bool?]
  | enum name =>
      cases w <;> cases type <;> simp only [HasType] at hv hw
      simp [isStoredAs, toJson, Json.text?]
  | timestamp t =>
      cases w <;> cases type <;> simp only [HasType] at hv hw
      simp [isStoredAs, toJson, timestampJson, Json.text?, Timestamp.render, String.ofList_inj,
        Timestamp.print_inj]

end Value

/-! ## Records -/

/-- The test for equality on a field of the scope is that of the value in the record. -/
theorem Filter.accepts_equals {r : Record} {scope : Scope} {path : List String} {field : Field} {v : Value}
    (hr : r.inScope scope = true) (hf : scope.resolve path = .ok field) (hv : v.HasType field.type) :
    (Filter.restricted (.equals field v)).accepts r.toJson = true ↔
      ∃ w, r.content.read field.path = some (.scalar w) ∧ w.Same v := by
  rw [accepts, Predicate.eval]
  rcases Record.found_of_resolve hr hf with ⟨c, hread, htyped, hlookup, _⟩ | ⟨hlookup, _, hlacks⟩
  · obtain ⟨w, rfl, hw⟩ := htyped.exists_scalar hv
    rw [hlookup, Option.any_some, Content.toJson_scalar, Value.isStoredAs_toJson_iff hw hv, hread]
    simp [Value.same_iff]
  · rw [hlookup]
    simp [hlacks.read_ne]

/-! ## Criteria -/

theorem ApplicationStatus.ofName?_eq_some_iff {name : String} {s : ApplicationStatus} :
    ofName? name = some s ↔ s.name = name := by
  constructor
  · intro h
    simpa using List.find?_some h
  · rintro rfl
    exact ofName?_name s

theorem ApplicationStatus.mem_names_iff {name : String} : name ∈ names ↔ ∃ s : ApplicationStatus, s.name = name := by
  constructor
  · intro h
    obtain ⟨s, _, hs⟩ := List.mem_map.mp h
    exact ⟨s, hs⟩
  · rintro ⟨s, rfl⟩
    exact s.name_mem_names

/-- The conversion of a status is what the type of its field would make of the text, too. -/
theorem Converter.status_coerce_iff {raw : String} {v : Value} :
    (∃ value, Converter.status (.text raw) = .ok value ∧ value.coerce (.enum ApplicationStatus.names) = .ok v) ↔
      (Value.text raw).coerce (.enum ApplicationStatus.names) = .ok v := by
  cases h : ApplicationStatus.ofName? raw with
  | none =>
      have hraw : raw ∉ ApplicationStatus.names := by
        rw [ApplicationStatus.mem_names_iff]
        rintro ⟨s, hs⟩
        rw [ApplicationStatus.ofName?_eq_some_iff.mpr hs] at h
        cases h
      simp [Converter.status, h, Value.coerce, hraw]
  | some s =>
      obtain rfl := ApplicationStatus.ofName?_eq_some_iff.mp h
      simp [Converter.status, h, Value.coerce, s.name_mem_names]

namespace Entity

variable {entity : Entity} {key literal raw : String} {field : Field} {v : Value} {f : Filter} {byOr : Bool}

/-- The field that a key stands for. -/
def Names (entity : Entity) (key : String) (field : Field) : Prop :=
  entity.descriptor.scope.resolve (entity.descriptor.pathOf (entity.descriptor.mappedKey key)) = .ok field

def Compiles (entity : Entity) (c : Criterion) (f : Filter) : Prop :=
  c.compile entity.descriptor .standard = .ok f

theorem convertValue_coerce_iff (h : entity.Names key field) :
    (∃ value, entity.descriptor.convertValue (entity.descriptor.mappedKey key) (.text raw) = .ok value ∧
        value.coerce field.type = .ok v) ↔
      (Value.text raw).coerce field.type = .ok v := by
  unfold Names at h
  by_cases hstatus : entity.descriptor.mappedKey key = "status"
  · rw [hstatus] at h ⊢
    cases entity with
    | accounts | users => cases h
    | _ =>
        cases h
        exact Converter.status_coerce_iff
  · rw [entity.convertValue_eq hstatus]
    simp

theorem supports_equality (entity : Entity) (h : literal ∈ ["=", ":", ":~"]) :
    entity.descriptor.supports literal = true := by
  simp only [List.mem_cons, List.not_mem_nil, or_false] at h
  rcases h with rfl | rfl | rfl <;> cases entity <;> decide

/-- A test for equality compiles if the key stands for a field and the text for a value of its type. -/
theorem compiles_equals_iff :
    entity.Compiles ⟨key, "=", .text raw, byOr⟩ f ↔
      ∃ field v, entity.Names key field ∧ (Value.text raw).coerce field.type = .ok v ∧
        f = .restricted (.equals field v) := by
  rw [Compiles, compile_registered_iff (o := .equals) (entity.supports_equality (by decide))
      (entity.overrides_eq_none _ (by decide)) rfl]
  constructor
  · rintro ⟨value, field, hconvert, hfield, hoperate⟩
    obtain ⟨v, hv, hf⟩ := bind_eq_ok_iff.mp hoperate
    cases hf
    exact ⟨field, v, hfield,
      (convertValue_coerce_iff hfield).mp ⟨value, hconvert, Operator.coerceTo_eq_ok_iff.mp hv⟩, rfl⟩
  · rintro ⟨field, v, hfield, hv, rfl⟩
    obtain ⟨value, hconvert, hcoerce⟩ := (convertValue_coerce_iff hfield).mpr hv
    exact ⟨value, field, hconvert, hfield,
      bind_eq_ok_iff.mpr ⟨v, Operator.coerceTo_eq_ok_iff.mpr hcoerce, rfl⟩⟩

/-- On a field that is not text the operators for parts of texts test for equality. -/
theorem compiles_part_iff (h : entity.Names key field) (ht : field.type ≠ .text)
    (hl : literal = ":" ∨ literal = ":~") :
    entity.Compiles ⟨key, literal, .text raw, byOr⟩ f ↔ entity.Compiles ⟨key, "=", .text raw, byOr⟩ f := by
  have hnot : ¬ field.type.isText = true := fun h => ht (FieldType.isText_iff.mp h)
  have hpart : ∃ o : Operator, Registry.standard.get? literal = some o ∧
      ∀ value, o.operate field ⟨key, literal, value, byOr⟩ =
        Operator.equals.operate field ⟨key, "=", value, byOr⟩ := by
    rcases hl with rfl | rfl
    · exact ⟨.like, rfl, fun value => if_neg hnot⟩
    · exact ⟨.ignoreCase, rfl, fun value => if_neg hnot⟩
  obtain ⟨o, ho, hoperate⟩ := hpart
  have hliteral : literal ∈ ["=", ":", ":~"] ∧ literal ≠ ":=" := by
    rcases hl with rfl | rfl <;> decide
  rw [Compiles, Compiles, compile_registered_iff (entity.supports_equality hliteral.1)
      (entity.overrides_eq_none _ hliteral.2) ho,
    compile_registered_iff (o := .equals) (entity.supports_equality (by decide))
      (entity.overrides_eq_none _ (by decide)) rfl]
  refine exists_congr fun value => exists_congr fun other => and_congr_right fun _ =>
    and_congr_right fun hother => ?_
  obtain rfl : field = other := Except.ok.inj (h.symm.trans hother)
  rw [hoperate]

/-- A test for equality compiles just if its key stands for a field and its text for a value of the type of
the field, and it accepts a record of the scope just if the record holds that value there. On a field that is
not text the operators for parts of texts compile to the same filter. All this is so for the criteria and for
the query strings that are written from them. -/
theorem equality_typed (entity : Entity) (key raw : String) (byOr : Bool) :
    (∀ f, entity.Compiles ⟨key, "=", .text raw, byOr⟩ f ↔
      ∃ field v, entity.Names key field ∧ (Value.text raw).coerce field.type = .ok v ∧
        f = .restricted (.equals field v)) ∧
    (∀ field v, entity.Compiles ⟨key, "=", .text raw, byOr⟩ (.restricted (.equals field v)) →
      ∀ r : Record, r.inScope entity.descriptor.scope = true →
        ((Filter.restricted (.equals field v)).accepts r.toJson = true ↔
          ∃ w, r.content.read field.path = some (.scalar w) ∧ w.Same v)) ∧
    (∀ field, entity.Names key field → field.type ≠ .text → ∀ literal, literal = ":" ∨ literal = ":~" →
      ∀ f, entity.Compiles ⟨key, literal, .text raw, byOr⟩ f ↔
        entity.Compiles ⟨key, "=", .text raw, byOr⟩ f) ∧
    ∀ literal,
      Query.Group.Writable entity.descriptor.grammar ⟨key.toList, literal.toList, raw.toList⟩ →
        ∀ f, entity.compile (key ++ literal ++ raw) byOr = .ok (entity.descriptor.scope, f) ↔
          entity.Compiles ⟨key, literal, .text raw, byOr⟩ f := by
  refine ⟨fun f => compiles_equals_iff, fun field v hc r hr => ?_,
    fun field h ht literal hl f => compiles_part_iff h ht hl, fun literal h f => compile_single_iff h byOr⟩
  obtain ⟨field', v', hfield, hv, heq⟩ := compiles_equals_iff.mp hc
  cases heq
  exact Filter.accepts_equals hr hfield (Value.hasType_of_coerce hv)

/-- A draft changed at noon is found by noon in a shorter form than the one that is stored. -/
theorem equality_typed_instant :
    let noon : Timestamp := { date := { year := 2024, month := 3, day := 15 }
                              hour := 12, minute := 0, second := 0, nanosecond := 0 }
    let r : Record := .application (.draft
      ⟨1, "A-1", ⟨"al", "Al", "", none, ⟨7, "member", "", false⟩⟩, .draft, none, noon⟩)
    noon.render = "2024-03-15T12:00:00" ∧
      ∃ f, draftApplications.compile "lastUpdated=2024-03-15T12:00" false = .ok (.variant .draft, f) ∧
        draftApplications.compile "lastUpdated:~2024-03-15T12:00" false = .ok (.variant .draft, f) ∧
        f.accepts r.toJson = true := by
  intro noon r
  let field : Field := ⟨["lastUpdated"], .timestamp⟩
  obtain ⟨hequals, haccepts, hpart, hquery⟩ :=
    equality_typed .draftApplications "lastUpdated" "2024-03-15T12:00" false
  have hfield : draftApplications.Names "lastUpdated" field := rfl
  have hread : Timestamp.parse? "2024-03-15T12:00".toList = some noon := by decide
  have hcoerce : (Value.text "2024-03-15T12:00").coerce field.type = .ok (.timestamp noon) := by
    simp only [field, Value.coerce, hread]
  have hcompiles := (hequals _).mpr ⟨field, .timestamp noon, hfield, hcoerce, rfl⟩
  have hignoring := (hpart field hfield (by rintro ⟨⟩) ":~" (.inr rfl) _).mpr hcompiles
  have hwritable : ∀ literal, literal = "=" ∨ literal = ":~" →
      Query.Group.Writable .application ⟨"lastUpdated".toList, literal.toList, "2024-03-15T12:00".toList⟩ := by
    rintro _ (rfl | rfl) <;>
      exact ⟨by decide, List.all_eq_true.mp (by decide), by decide, by decide, by decide, by decide, by decide,
        by decide⟩
  refine ⟨by decide, _, (hquery "=" (hwritable _ (.inl rfl)) _).mpr hcompiles,
    (hquery ":~" (hwritable _ (.inr rfl)) _).mpr hignoring, ?_⟩
  exact (haccepts field _ hcompiles r rfl).mpr ⟨.timestamp noon, rfl, rfl⟩

end Entity

end RecordSearch

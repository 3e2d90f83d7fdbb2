import RecordSearch.Proofs.Predicate.Substring
import RecordSearch.Proofs.Query.Equality

/-!
# Searches for parts of texts

On a field that is text the operators for parts of texts compile to patterns. Without wildcards in the value
they select the records whose text contains it, as it is or both in lower case.
-/

namespace RecordSearch

open Text

variable {field : Field}

/-! ## Records -/

/-- The record holds a text in the field, and one with the property. -/
def Record.HasText (r : Record) (field : Field) (P : String → Prop) : Prop :=
  ∃ s, r.content.read field.path = some (.scalar (.text s)) ∧ P s

theorem Record.hasText_congr {r : Record} {P Q : String → Prop} (h : ∀ s, P s ↔ Q s) :
    r.HasText field P ↔ r.HasText field Q :=
  exists_congr fun s => and_congr_right fun _ => h s

theorem Content.HasType.exists_text {c : Content} (h : c.HasType .text) : ∃ s, c = .scalar (.text s) := by
  obtain ⟨v, rfl, hv⟩ := h.exists_scalar (w := .text "") trivial
  cases v with
  | text s => exact ⟨s, rfl⟩
  | _ => exact hv.elim

/-- A pattern is matched with the text that the record holds in the field. -/
theorem Filter.accepts_like {r : Record} {scope : Scope} {path : List String} (hr : r.inScope scope = true)
    (hf : scope.resolve path = .ok field) (ht : field.type = .text) (pattern : String) (ignoreCase : Bool) :
    (Filter.restricted (.like field pattern ignoreCase)).accepts r.toJson = true ↔
      r.HasText field (matchesPattern pattern ignoreCase · = true) := by
  rw [accepts, Predicate.eval, Record.HasText]
  rcases Record.found_of_resolve hr hf with ⟨c, hread, htyped, hlookup, _⟩ | ⟨hlookup, _, hlacks⟩
  · rw [ht] at htyped
    obtain ⟨s, rfl⟩ := htyped.exists_text
    rw [hlookup, Content.toJson_scalar, hread]
    simp [Value.toJson, Json.text?]
  · rw [hlookup]
    simp [hlacks.read_ne]

/-! ## Criteria -/

namespace Entity

variable {entity : Entity} {key literal raw : String} {f : Filter} {byOr : Bool} {o : Operator}

/-- The criterion compiles, and of the records of the scope its filter accepts those with the property. -/
def Selects (entity : Entity) (c : Criterion) (P : Record → Prop) : Prop :=
  ∃ f, entity.Compiles c f ∧
    ∀ r : Record, r.inScope entity.descriptor.scope = true → (f.accepts r.toJson = true ↔ P r)

theorem Selects.congr {c : Criterion} {P Q : Record → Prop} (h : entity.Selects c P) (hPQ : ∀ r, P r ↔ Q r) :
    entity.Selects c Q := by
  obtain ⟨f, hf, haccepts⟩ := h
  exact ⟨f, hf, fun r hr => (haccepts r hr).trans (hPQ r)⟩

theorem convertValue_of_text (hn : entity.Names key field) (ht : field.type = .text) (value : Value) :
    entity.descriptor.convertValue (entity.descriptor.mappedKey key) value = .ok value := by
  refine entity.convertValue_eq (fun hstatus => ?_) value
  rw [Names, hstatus] at hn
  cases entity <;> cases hn <;> cases ht

theorem overrides_of_text (hn : entity.Names key field) (ht : field.type = .text) (literal : String) :
    entity.descriptor.overrides.get? (entity.descriptor.mappedKey key, literal) = none := by
  rw [Option.eq_none_iff_forall_ne_some]
  intro o ho
  -- The only field with an override is the list of assigned committee members.
  have hpath : field.path = assignedPath := by
    rw [FieldTable.path_of_resolve hn, (override_eq ho).1]
    rfl
  have hdeclares : entity.descriptor.scope.Declares field := by
    rwa [Scope.Declares, FieldTable.path_of_resolve hn]
  rw [Operator.type_of_assignedPath hdeclares hpath] at ht
  cases ht

theorem compiles_text_iff (hn : entity.Names key field) (ht : field.type = .text)
    (hs : entity.descriptor.supports literal = true) (ho : Registry.standard.get? literal = some o) :
    entity.Compiles ⟨key, literal, .text raw, byOr⟩ f ↔ o.operate field ⟨key, literal, .text raw, byOr⟩ = .ok f := by
  rw [Compiles, compile_registered_iff hs (overrides_of_text hn ht literal) ho]
  constructor
  · rintro ⟨value, other, hvalue, hother, hf⟩
    obtain rfl : .text raw = value := Except.ok.inj ((convertValue_of_text hn ht _).symm.trans hvalue)
    obtain rfl : field = other := Except.ok.inj (hn.symm.trans hother)
    exact hf
  · exact fun hf => ⟨.text raw, field, convertValue_of_text hn ht _, hn, hf⟩

theorem selects_pattern (hn : entity.Names key field) (ht : field.type = .text)
    (hs : entity.descriptor.supports literal = true) (ho : Registry.standard.get? literal = some o)
    {pattern : String} {ignoreCase : Bool}
    (hoperate : o.operate field ⟨key, literal, .text raw, byOr⟩ =
      .ok (.restricted (.like field pattern ignoreCase))) :
    entity.Selects ⟨key, literal, .text raw, byOr⟩
      (·.HasText field (matchesPattern pattern ignoreCase · = true)) :=
  ⟨_, (compiles_text_iff hn ht hs ho).mpr hoperate,
    fun _ hr => Filter.accepts_like hr hn ht pattern ignoreCase⟩

theorem selects_like (hn : entity.Names key field) (ht : field.type = .text) :
    entity.Selects ⟨key, ":", .text raw, byOr⟩
      (·.HasText field (matchesPattern (Operator.containing raw.toList) false · = true)) :=
  selects_pattern hn ht (o := .like) (entity.supports_equality (by decide)) rfl
    (if_pos (FieldType.isText_iff.mpr ht))

theorem selects_contains (hn : entity.Names key field) (ht : field.type = .text)
    (hs : entity.descriptor.supports ":=" = true) :
    entity.Selects ⟨key, ":=", .text raw, byOr⟩
      (·.HasText field (matchesPattern (Operator.containing raw.toList) false · = true)) := by
  have htext := FieldType.isText_iff.mpr ht
  exact selects_pattern hn ht (o := .contains) hs rfl ((if_pos htext).trans (if_pos htext))

theorem selects_ignoreCase (hn : entity.Names key field) (ht : field.type = .text) :
    entity.Selects ⟨key, ":~", .text raw, byOr⟩
      (·.HasText field (matchesPattern (Operator.containing (lowercase raw.toList)) true · = true)) :=
  selects_pattern hn ht (o := .ignoreCase) (entity.supports_equality (by decide)) rfl
    (if_pos (FieldType.isText_iff.mpr ht))

/-- For a value without wildcards the operators for parts of texts select the records whose text contains
the value as a part: as it is, or both in lower case. This is so for the criteria and for the query strings
that are written from them. -/
theorem selects_containing (hn : entity.Names key field) (ht : field.type = .text)
    (hw : Like.Literal raw.toList) (byOr : Bool) :
    entity.Selects ⟨key, ":", .text raw, byOr⟩ (·.HasText field (raw.toList <:+: ·.toList)) ∧
    (entity.descriptor.supports ":=" = true →
      entity.Selects ⟨key, ":=", .text raw, byOr⟩ (·.HasText field (raw.toList <:+: ·.toList))) ∧
    entity.Selects ⟨key, ":~", .text raw, byOr⟩
      (·.HasText field (lowercase raw.toList <:+: lowercase ·.toList)) ∧
    ∀ literal,
      Query.Group.Writable entity.descriptor.grammar ⟨key.toList, literal.toList, raw.toList⟩ →
        ∀ f, entity.compile (key ++ literal ++ raw) byOr = .ok (entity.descriptor.scope, f) ↔
          entity.Compiles ⟨key, literal, .text raw, byOr⟩ f := by
  have hplain (r : Record) : r.HasText field (matchesPattern (Operator.containing raw.toList) false · = true) ↔
      r.HasText field (raw.toList <:+: ·.toList) :=
    Record.hasText_congr fun s => (matchesPattern_containing_iff false s).trans hw.matches_containing_iff
  have hlower (r : Record) :
      r.HasText field (matchesPattern (Operator.containing (lowercase raw.toList)) true · = true) ↔
        r.HasText field (lowercase raw.toList <:+: lowercase ·.toList) :=
    Record.hasText_congr fun s =>
      (matchesPattern_containing_iff true s).trans hw.lowercase.matches_containing_iff
  exact ⟨(selects_like hn ht).congr hplain, fun hs => (selects_contains hn ht hs).congr hplain,
    (selects_ignoreCase hn ht).congr hlower, fun literal h f => compile_single_iff h byOr⟩

/-- A part of a name that begins one character behind a beginning that fails, and in other letters. -/
theorem selects_containing_overlap :
    let r : Record := .application (.draft
      ⟨1, "A-1", ⟨"al", "aaab", "", none, ⟨7, "member", "", false⟩⟩, .draft, none,
        .midnight { year := 2024, month := 3, day := 15 }⟩)
    ∃ f g h, applications.compile "user.name:aab" false = .ok (.applications, f) ∧
      applications.compile "user.name:=aab" false = .ok (.applications, g) ∧
      applications.compile "user.name:~AaB" false = .ok (.applications, h) ∧
      f.accepts r.toJson = true ∧ g.accepts r.toJson = true ∧ h.accepts r.toJson = true := by
  intro r
  let field : Field := ⟨["user", "name"], .text⟩
  have hn : applications.Names "user.name" field := rfl
  have hpart : r.HasText field ("aab".toList <:+: ·.toList) := ⟨"aaab", rfl, ['a'], [], rfl⟩
  have hlower : r.HasText field (lowercase "AaB".toList <:+: lowercase ·.toList) :=
    ⟨"aaab", rfl, ['a'], [], by decide +kernel⟩
  have hplain : Like.Literal "aab".toList := by decide
  have hmixed : Like.Literal "AaB".toList := by decide
  obtain ⟨⟨f, hf, hfr⟩, hmember, _, hquery⟩ := selects_containing hn rfl hplain false
  obtain ⟨g, hg, hgr⟩ := hmember (by decide)
  obtain ⟨_, _, ⟨h, hh, hhr⟩, hmixedQuery⟩ := selects_containing hn rfl hmixed false
  exact ⟨f, g, h, (hquery ":" (by decide) f).mpr hf, (hquery ":=" (by decide) g).mpr hg,
    (hmixedQuery ":~" (by decide) h).mpr hh, (hfr r rfl).mpr hpart, (hgr r rfl).mpr hpart,
    (hhr r rfl).mpr hlower⟩

end Entity

end RecordSearch

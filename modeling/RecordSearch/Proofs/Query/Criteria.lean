import RecordSearch.Proofs.Predicate.Meaning
import RecordSearch.Proofs.Query.Compile

/-!
# The meaning of lists of criteria

The filter of a list of criteria that are all joined the same way accepts the documents that satisfy all
criteria, or one of them. A list compiles if each of its criteria does.
-/

namespace RecordSearch

variable {d : Descriptor} {registry : Registry} {matching : String → Bool → String → Bool} {doc : Json}
  {f : Filter} {byOr : Bool} {criteria : List Criterion}

/-- Whether a document satisfies a criterion; none satisfies one that does not compile. -/
def Criterion.holds (d : Descriptor) (registry : Registry) (matching : String → Bool → String → Bool)
    (doc : Json) (c : Criterion) : Bool :=
  match c.compile d registry with
  | .ok f => f.acceptsBy matching doc
  | .error _ => false

theorem Criterion.holds_eq {c : Criterion} (h : c.compile d registry = .ok f) :
    c.holds d registry matching doc = f.acceptsBy matching doc := by
  rw [holds, h]

namespace Query

/-- Whether a document satisfies one of the criteria, or all of them. -/
def criteriaHold (d : Descriptor) (registry : Registry) (matching : String → Bool → String → Bool)
    (byOr : Bool) (criteria : List Criterion) (doc : Json) : Bool :=
  if byOr then criteria.any (·.holds d registry matching doc)
  else criteria.all (·.holds d registry matching doc)

theorem criteriaHold_append (first second : List Criterion) :
    criteriaHold d registry matching byOr (first ++ second) doc =
      if byOr then criteriaHold d registry matching byOr first doc ||
        criteriaHold d registry matching byOr second doc
      else criteriaHold d registry matching byOr first doc &&
        criteriaHold d registry matching byOr second doc := by
  cases byOr with
  | true => exact List.any_append
  | false => exact List.all_append

theorem exists_buildFrom_iff {asked : Nat} {running : Option Filter} :
    (∃ f, (buildFrom (fun _ => some d) registry asked running criteria).2 = .ok f) ↔
      ∀ c ∈ criteria, ∃ f, c.compile d registry = .ok f := by
  induction criteria generalizing asked running with
  | nil => simp [buildFrom]
  | cons c rest ih =>
      rw [List.forall_mem_cons]
      constructor
      · rintro ⟨f, h⟩
        obtain ⟨g, hg, h⟩ := buildFrom_cons_eq_ok_iff.mp h
        exact ⟨⟨g, hg⟩, ih.mp ⟨f, h⟩⟩
      · rintro ⟨⟨g, hg⟩, hrest⟩
        obtain ⟨f, h⟩ := ih.mpr hrest
        exact ⟨f, buildFrom_cons_eq_ok_iff.mpr ⟨g, hg, h⟩⟩

theorem exists_build_iff :
    (∃ f, (build criteria (fun _ => some d) registry).2 = .ok f) ↔
      ∀ c ∈ criteria, ∃ f, c.compile d registry = .ok f :=
  exists_buildFrom_iff

theorem acceptsBy_joined (g : Filter) :
    (joined (some g) f byOr).acceptsBy matching doc =
      if byOr then g.acceptsBy matching doc || f.acceptsBy matching doc
      else g.acceptsBy matching doc && f.acceptsBy matching doc := by
  cases byOr with
  | true => exact Filter.acceptsBy_or g f
  | false => exact Filter.acceptsBy_and g f

/-- Criteria that are folded onto a filter accept what it accepts or, or else and, what they do. -/
theorem acceptsBy_of_buildFrom {asked : Nat} {g : Filter}
    (hb : ∀ c ∈ criteria, c.orWithPrevious = byOr)
    (h : (buildFrom (fun _ => some d) registry asked (some g) criteria).2 = .ok f) :
    f.acceptsBy matching doc =
      if byOr then g.acceptsBy matching doc || criteriaHold d registry matching byOr criteria doc
      else g.acceptsBy matching doc && criteriaHold d registry matching byOr criteria doc := by
  induction criteria generalizing asked g with
  | nil =>
      cases h
      cases byOr with
      | true => exact (Bool.or_false _).symm
      | false => exact (Bool.and_true _).symm
  | cons c rest ih =>
      rw [List.forall_mem_cons] at hb
      obtain ⟨k, hk, h⟩ := buildFrom_cons_eq_ok_iff.mp h
      rw [ih hb.2 h, hb.1, acceptsBy_joined, ← Criterion.holds_eq hk]
      cases byOr with
      | true => exact Bool.or_assoc _ _ _
      | false => exact Bool.and_assoc _ _ _

/-- The filter of criteria that are all joined the same way, of which there is at least one. -/
theorem acceptsBy_of_build (hne : criteria ≠ []) (hb : ∀ c ∈ criteria, c.orWithPrevious = byOr)
    (h : (build criteria (fun _ => some d) registry).2 = .ok f) :
    f.acceptsBy matching doc = criteriaHold d registry matching byOr criteria doc := by
  cases criteria with
  | nil => exact absurd rfl hne
  | cons c rest =>
      rw [List.forall_mem_cons] at hb
      obtain ⟨k, hk, h⟩ := buildFrom_cons_eq_ok_iff.mp h
      rw [acceptsBy_of_buildFrom hb.2 h, joined, ← Criterion.holds_eq hk]
      cases byOr <;> rfl

theorem orWithPrevious_of_parse {g : Grammar} {query : String} :
    ∀ c ∈ parse g query byOr, c.orWithPrevious = byOr := by
  intro c hc
  obtain ⟨group, _, rfl⟩ := List.mem_map.mp hc
  rfl

end Query

/-- A query compiles if each of its criteria does. -/
theorem Entity.exists_compile_iff {entity : Entity} {query : String} :
    (∃ compiled, entity.compile query byOr = .ok compiled) ↔
      ∀ c ∈ Query.parse entity.descriptor.grammar query byOr,
        ∃ f, c.compile entity.descriptor .standard = .ok f := by
  rw [← Query.exists_build_iff]
  constructor
  · rintro ⟨⟨scope, f⟩, h⟩
    exact ⟨f, (compile_eq_ok_iff.mp h).2⟩
  · rintro ⟨f, h⟩
    exact ⟨_, compile_eq_ok_iff.mpr ⟨rfl, h⟩⟩

/-- The filter of a query with at least one criterion accepts what its criteria do. -/
theorem Entity.acceptsBy_of_compile {entity : Entity} {query : String} {scope : Scope}
    (hne : Query.parse entity.descriptor.grammar query byOr ≠ [])
    (h : entity.compile query byOr = .ok (scope, f)) :
    f.acceptsBy matching doc =
      Query.criteriaHold entity.descriptor .standard matching byOr
        (Query.parse entity.descriptor.grammar query byOr) doc :=
  Query.acceptsBy_of_build hne Query.orWithPrevious_of_parse (compile_eq_ok_iff.mp h).2

end RecordSearch

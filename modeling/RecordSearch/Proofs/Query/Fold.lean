import RecordSearch.Proofs.Query.Criteria

/-!
# Lists of criteria as folds

A list of criteria is built from the left. Each criterion gets a descriptor of its own or is left out, and the
first one that gets a descriptor and does not compile ends the building. If there is none, the filter accepts
just the documents that the left fold over the filters of the criteria accepts.
-/

namespace RecordSearch.Query

/-- What becomes of a criterion of a list: nothing if there is no descriptor for it, else what it compiles
to. -/
structure Attempt where
  orWithPrevious : Bool
  result : Option (Except SearchError Filter)

namespace Attempt

def error? (a : Attempt) : Option SearchError :=
  match a.result with
  | some (.error e) => some e
  | _ => none

/-- The filter of the criterion, with the way in which it is joined to those before it. -/
def survivor? (a : Attempt) : Option (Bool × Filter) :=
  match a.result with
  | some (.ok f) => some (a.orWithPrevious, f)
  | _ => none

end Attempt

variable {descriptors : Nat → Option Descriptor} {registry : Registry} {asked : Nat}
  {running : Option Filter} {criteria : List Criterion} {doc : Json}

/-- What becomes of the criteria of a list if the first of them is the one for which `asked` descriptors were
asked for before. -/
def attemptsFrom (descriptors : Nat → Option Descriptor) (registry : Registry) (asked : Nat)
    (criteria : List Criterion) : List Attempt :=
  (criteria.zipIdx asked).map fun (c, n) => ⟨c.orWithPrevious, (descriptors n).map (c.compile · registry)⟩

theorem attemptsFrom_cons (c : Criterion) (rest : List Criterion) :
    attemptsFrom descriptors registry asked (c :: rest) =
      ⟨c.orWithPrevious, (descriptors asked).map (c.compile · registry)⟩ ::
        attemptsFrom descriptors registry (asked + 1) rest := by
  rw [attemptsFrom, List.zipIdx_cons, List.map_cons, attemptsFrom]

/-- Joins what a filter says of a document to what those before it say. -/
def join (doc : Json) (held : Bool) (later : Bool × Filter) : Bool :=
  if later.1 then held || later.2.accepts doc else held && later.2.accepts doc

/-- What filters say of a document one after another. The first one stands alone, however it is joined, and
where there is none every document is accepted. -/
def acceptInTurn (doc : Json) : List (Bool × Filter) → Bool
  | [] => true
  | (_, seed) :: rest => rest.foldl (join doc) (seed.accepts doc)

/-- The same if there are filters before the list. -/
def acceptFrom (doc : Json) (running : Option Filter) (filters : List (Bool × Filter)) : Bool :=
  match running with
  | none => acceptInTurn doc filters
  | some g => filters.foldl (join doc) (g.accepts doc)

theorem accepts_joined (g f : Filter) (byOr : Bool) :
    (joined (some g) f byOr).accepts doc = join doc (g.accepts doc) (byOr, f) := by
  simp only [← Filter.acceptsBy_matchesPattern, acceptsBy_joined, join]

/-- A filter that is joined to those so far is the first of the list. -/
theorem acceptFrom_joined (f : Filter) (byOr : Bool) (filters : List (Bool × Filter)) :
    acceptFrom doc (some (joined running f byOr)) filters = acceptFrom doc running ((byOr, f) :: filters) := by
  cases running with
  | none => rfl
  | some g => rw [acceptFrom, accepts_joined, acceptFrom, List.foldl_cons]

theorem accepts_running (running : Option Filter) :
    (running.getD .unrestricted).accepts doc = acceptFrom doc running [] := by
  cases running <;> rfl

/-- The list is built up to the first criterion that gets a descriptor and does not compile. -/
def EndsEarly (attempts : List Attempt) (asked : Nat) (built : Nat × Except SearchError Filter) : Prop :=
  ∃ before a after e, attempts = before ++ a :: after ∧ (∀ b ∈ before, b.error? = none) ∧
    a.error? = some e ∧ built = (asked + before.length + 1, .error e)

/-- No criterion fails to compile, and the filter accepts what those of the criteria accept in turn. -/
def Completes (attempts : List Attempt) (asked : Nat) (running : Option Filter)
    (built : Nat × Except SearchError Filter) : Prop :=
  (∀ a ∈ attempts, a.error? = none) ∧
    ∃ f, built = (asked + attempts.length, .ok f) ∧
      ∀ doc, f.accepts doc = acceptFrom doc running (attempts.filterMap Attempt.survivor?)

variable {a : Attempt} {attempts : List Attempt} {built : Nat × Except SearchError Filter}

theorem EndsEarly.cons (ha : a.error? = none) (h : EndsEarly attempts (asked + 1) built) :
    EndsEarly (a :: attempts) asked built := by
  obtain ⟨before, b, after, e, rfl, hbefore, hb, rfl⟩ := h
  refine ⟨a :: before, b, after, e, rfl, List.forall_mem_cons.mpr ⟨ha, hbefore⟩, hb, ?_⟩
  rw [List.length_cons]
  congr 1
  omega

theorem Completes.cons {next : Option Filter} (ha : a.error? = none)
    (h : Completes attempts (asked + 1) next built)
    (hnext : ∀ doc filters, acceptFrom doc next filters =
      acceptFrom doc running (a.survivor?.toList ++ filters)) :
    Completes (a :: attempts) asked running built := by
  obtain ⟨hall, f, rfl, hf⟩ := h
  refine ⟨List.forall_mem_cons.mpr ⟨ha, hall⟩, f, ?_, fun doc => ?_⟩
  · rw [List.length_cons]
    congr 1
    omega
  · rw [hf, hnext]
    cases hs : a.survivor? with
    | none => rw [List.filterMap_cons_none hs]; rfl
    | some s => rw [List.filterMap_cons_some hs]; rfl

theorem buildFrom_cases :
    EndsEarly (attemptsFrom descriptors registry asked criteria) asked
        (buildFrom descriptors registry asked running criteria) ∨
      Completes (attemptsFrom descriptors registry asked criteria) asked running
        (buildFrom descriptors registry asked running criteria) := by
  induction criteria generalizing asked running with
  | nil => exact .inr ⟨List.forall_mem_nil _, _, rfl, fun doc => accepts_running running⟩
  | cons c rest ih =>
      rw [attemptsFrom_cons, buildFrom]
      cases hd : descriptors asked with
      | none =>
          -- the criterion is left out
          exact ih.imp (EndsEarly.cons rfl) fun h => h.cons rfl fun doc filters => rfl
      | some d =>
          dsimp only [Option.map_some]
          cases hc : c.compile d registry with
          | error e => exact .inl ⟨[], _, _, e, rfl, List.forall_mem_nil _, rfl, rfl⟩
          | ok f =>
              exact ih.imp (EndsEarly.cons rfl) fun h =>
                h.cons rfl fun doc filters => acceptFrom_joined f c.orWithPrevious filters

/-- Descriptors are asked for once for each criterion in order. The first criterion that gets one and does not
compile is the last for which one is asked for, and its error is the outcome. If there is none, the criteria
have a filter, and it accepts what the left fold over the filters of the criteria that got a descriptor
accepts. -/
theorem build_eq_fold (criteria : List Criterion) (descriptors : Nat → Option Descriptor)
    (registry : Registry) :
    let attempts := attemptsFrom descriptors registry 0 criteria
    (∃ before a after e, attempts = before ++ a :: after ∧ (∀ b ∈ before, b.error? = none) ∧
        a.error? = some e ∧ build criteria descriptors registry = (before.length + 1, .error e)) ∨
      (∀ a ∈ attempts, a.error? = none) ∧
        ∃ f, build criteria descriptors registry = (criteria.length, .ok f) ∧
          ∀ doc, f.accepts doc = acceptInTurn doc (attempts.filterMap Attempt.survivor?) := by
  have hlength : (attemptsFrom descriptors registry 0 criteria).length = criteria.length := by
    rw [attemptsFrom, List.length_map, List.length_zipIdx]
  have h : EndsEarly _ 0 _ ∨ Completes _ 0 none (buildFrom descriptors registry 0 none criteria) :=
    buildFrom_cases
  simp only [EndsEarly, Completes, Nat.zero_add, hlength] at h
  exact h

end RecordSearch.Query

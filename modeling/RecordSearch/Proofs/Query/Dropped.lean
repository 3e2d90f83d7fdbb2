import RecordSearch.Entity
import RecordSearch.Proofs.Query.Compile

/-!
# Dropped criteria

A criterion whose operator is not accepted is dropped from a list of criteria that are joined by "and",
wherever it stands in it. Its value is converted before that, and a value that does not convert is refused
even so.
-/

namespace RecordSearch

variable {d : Descriptor} {registry : Registry}

@[simp]
theorem Filter.and_unrestricted (f : Filter) : f.and .unrestricted = f := by
  cases f <;> rfl

namespace Query

variable {running : Option Filter} {c : Criterion} {before after : List Criterion}

/-- With one descriptor for all criteria it makes no difference how often it was asked for. -/
theorem buildFrom_asked (asked asked' : Nat) (running : Option Filter) (criteria : List Criterion) :
    (buildFrom (fun _ => some d) registry asked running criteria).2 =
      (buildFrom (fun _ => some d) registry asked' running criteria).2 := by
  induction criteria generalizing asked asked' running with
  | nil => rfl
  | cons c rest ih =>
      rw [buildFrom_cons, buildFrom_cons]
      exact bind_congr fun f => ih _ _ _

/-- A filter that restricts nothing is as good as none to begin with, unless the next criterion is joined to it
by "or". -/
theorem buildFrom_unrestricted (asked : Nat) (h : ∀ b ∈ after.head?, b.orWithPrevious = false) :
    (buildFrom (fun _ => some d) registry asked (some .unrestricted) after).2 =
      (buildFrom (fun _ => some d) registry asked none after).2 := by
  cases after with
  | nil => rfl
  | cons b after =>
      rw [buildFrom_cons, buildFrom_cons, h b rfl]
      rfl

/-- A criterion that restricts nothing can be left out of a list, if it is joined by "and" and nothing is
joined to it alone by "or". -/
theorem buildFrom_insert (hc : c.compile d registry = .ok .unrestricted) (ho : c.orWithPrevious = false)
    (asked : Nat) (running : Option Filter) (before : List Criterion)
    (h : before = [] → running = none → ∀ b ∈ after.head?, b.orWithPrevious = false) :
    (buildFrom (fun _ => some d) registry asked running (before ++ c :: after)).2 =
      (buildFrom (fun _ => some d) registry asked running (before ++ after)).2 := by
  induction before generalizing asked running with
  | nil =>
      rw [List.nil_append, List.nil_append, buildFrom_cons, hc, ok_bind, ho]
      cases running with
      -- It is first, and what comes next is joined to a filter where there was none.
      | none => exact (buildFrom_unrestricted _ (h rfl rfl)).trans (buildFrom_asked _ _ _ _)
      | some f =>
          rw [joined, if_neg Bool.false_ne_true, Filter.and_unrestricted]
          exact buildFrom_asked _ _ _ _
  | cons b before ih =>
      rw [List.cons_append, List.cons_append, buildFrom_cons, buildFrom_cons]
      exact bind_congr fun f => ih _ _ fun _ hsome => absurd hsome (Option.some_ne_none _)

/-- A criterion that does not compile ends a list that compiles up to it. -/
theorem buildFrom_insert_error {e : SearchError} (hc : c.compile d registry = .error e) (asked : Nat)
    (running : Option Filter) (before : List Criterion) :
    (buildFrom (fun _ => some d) registry asked running (before ++ c :: after)).2 =
      (buildFrom (fun _ => some d) registry asked running before).2 >>= fun _ => .error e := by
  induction before generalizing asked running with
  | nil =>
      rw [List.nil_append, buildFrom_cons, hc]
      rfl
  | cons b before ih =>
      rw [List.cons_append, buildFrom_cons, buildFrom_cons, bind_assoc]
      exact bind_congr fun f => ih _ _

/-- A criterion with an operator that the descriptor does not accept makes no difference to what the criteria
around it build, neither to a filter nor to an error, if its value converts, it is joined by "and", and no "or"
joins the next criterion to it alone. If its value does not convert, the criteria before it are built, and if
they can be the refusal of the value is the error. -/
theorem build_insert (hs : d.supports c.operator = false) :
    (∀ value, d.convertValue (d.mappedKey c.key) c.value = .ok value → c.orWithPrevious = false →
      (before = [] → ∀ b ∈ after.head?, b.orWithPrevious = false) →
        (build (before ++ c :: after) (fun _ => some d) registry).2 =
          (build (before ++ after) (fun _ => some d) registry).2) ∧
    ∀ cause, d.convertValue (d.mappedKey c.key) c.value = .error cause →
      (build (before ++ c :: after) (fun _ => some d) registry).2 =
        (build before (fun _ => some d) registry).2 >>= fun _ => .error (.criterion c.key c.operator cause) :=
  ⟨fun _ hvalue hc hor =>
      buildFrom_insert (Criterion.compile_of_unsupported hs hvalue) hc 0 none before fun hnil _ => hor hnil,
    fun _ hcause => buildFrom_insert_error (Criterion.compile_of_rejected hcause) 0 none before⟩

/-- A criterion on a key that users do not have, with an operator that a search of users does not accept, at
the head of a list; and one whose value is refused behind a criterion that compiles. -/
theorem build_insert_first :
    let age : Criterion := ⟨"age", ">", .text "40", false⟩
    let name : Criterion := ⟨"name", ":", .text "Al", false⟩
    let number : Criterion := ⟨"id", "=", .text "A-1", false⟩
    let status : Criterion := ⟨"status", "!", .text "LOST", false⟩
    (build [age, name] (fun _ => some Entity.users.descriptor) .standard).2 =
        .ok (.restricted (.like ⟨["name"], .text⟩ (Operator.containing "Al".toList) false)) ∧
      (build [number, status, age] (fun _ => some Entity.applications.descriptor) .standard).2 =
        .error (.criterion "status" "!" (.notValid "LOST" "ApplicationStatus")) := by
  intro age name number status
  obtain ⟨hdropped, _⟩ :=
    @build_insert Entity.users.descriptor .standard age [] [name] (by decide)
  obtain ⟨_, hrefused⟩ :=
    @build_insert Entity.applications.descriptor .standard status [number] [age] (by decide)
  have hname : (build [⟨"name", ":", .text "Al", false⟩] (fun _ => some Entity.users.descriptor) .standard).2 =
      .ok (.restricted (.like ⟨["name"], .text⟩ (Operator.containing "Al".toList) false)) := rfl
  have hnumber : (build [⟨"id", "=", .text "A-1", false⟩] (fun _ => some Entity.applications.descriptor)
      .standard).2 = .ok (.restricted (.equals ⟨["applicationId"], .text⟩ (.text "A-1"))) := rfl
  refine ⟨(hdropped _ rfl rfl fun _ => by simp [name]).trans hname, (hrefused _ rfl).trans ?_⟩
  exact (congrArg (· >>= _) hnumber).trans (ok_bind _ _)

/-- A value that is no status is refused though the operator is not accepted. -/
theorem build_refuses_dropped :
    let d : Descriptor := { Entity.applications.descriptor with operators := ["="] }
    let status : Criterion := ⟨"status", ":", .text "LOST", false⟩
    d.supports ":" = false ∧ (build [] (fun _ => some d) .standard).2 = .ok .unrestricted ∧
      (build [status] (fun _ => some d) .standard).2 =
        .error (.criterion "status" ":" (.notValid "LOST" "ApplicationStatus")) :=
  ⟨by decide, rfl, rfl⟩

end Query

end RecordSearch

import RecordSearch.Proofs.Predicate.Like

/-!
# The matcher stays in bounds and ends

The positions in text and pattern both go back when the last wildcard is retried, so that neither of them
measures progress. What never goes back is the place to retry from: each retry begins further on in the text,
and each new wildcard further on in the pattern. Between two changes of this place the pattern is passed once
at most, and the number of steps is quadratic in the lengths.
-/

namespace RecordSearch.Like

variable {text pattern : List Char} {s s' : State} {steps : Nat}

/-- The states that the matcher comes to, by the number of steps it has made. -/
inductive After (text pattern : List Char) : Nat → State → Prop
  | start : After text pattern 0 State.start
  | next {steps : Nat} {s s' : State} (h : After text pattern steps s)
      (hs : step text.toArray pattern.toArray s = .inl s') : After text pattern (steps + 1) s'

theorem turn_of_step (hs : step text.toArray pattern.toArray s = .inl s') : Turn text pattern s (.inl s') := by
  rw [← hs]
  exact turn_step text pattern s

/-! ## Bounds -/

/-- What is retried comes right after a wildcard. -/
def Marked (pattern : List Char) (s : State) : Prop :=
  ∀ resume first, s.retry = some (resume, first) → 0 < resume ∧ pattern[resume - 1]? = some '%'

/-- The state lies inside text and pattern, and the place to retry from lies not behind it, right after a
wildcard. -/
structure InBounds (text pattern : List Char) (s : State) : Prop where
  text_le : s.text ≤ text.length
  pattern_le : s.pattern ≤ pattern.length
  retry : ∀ resume first, s.retry = some (resume, first) →
    resume ≤ s.pattern ∧ first ≤ s.text ∧ 0 < resume ∧ pattern[resume - 1]? = some '%'

theorem Turn.marked (h : Turn text pattern s (.inl s')) (hm : Marked pattern s) : Marked pattern s' := by
  cases h with
  | wildcard _ hp =>
      rintro _ _ ⟨⟩
      exact ⟨Nat.succ_pos _, hp⟩
  | agree => exact hm
  | retry _ _ _ hr =>
      rintro _ _ ⟨⟩
      exact hm _ _ hr

theorem Invariant.inBounds (hi : Invariant text pattern s) (hm : Marked pattern s) :
    InBounds text pattern s := by
  refine ⟨hi.text_le, hi.pattern_le, fun resume first hr => ?_⟩
  obtain ⟨hle, hsum, _⟩ := hi.since_retry _ _ hr
  exact ⟨hle, by omega, hm _ _ hr⟩

theorem After.invariant (h : After text pattern steps s) : Invariant text pattern s := by
  induction h with
  | start => exact start_invariant text pattern
  | next _ hs ih =>
      have hnext := step_outcome ih
      rw [hs] at hnext
      exact hnext.1

theorem After.marked (h : After text pattern steps s) : Marked pattern s := by
  induction h with
  | start => rintro _ _ ⟨⟩
  | next _ hs ih => exact (turn_of_step hs).marked ih

theorem After.inBounds (h : After text pattern steps s) : InBounds text pattern s :=
  h.invariant.inBounds h.marked

/-! ## Progress -/

/-- A bound on the number of steps still to come: as often as the place to retry from can move on, a pass
through the whole pattern, and then what is left of the pattern. -/
def State.budget (text pattern : List Char) (s : State) : Nat :=
  let (resume, first) := s.retry.getD (0, 0)
  (text.length + pattern.length - (resume + first)) * (pattern.length + 1) + (pattern.length - s.pattern)

/-- The place to retry from, or the start if there is none, lies not behind the state. -/
theorem InBounds.retry_le (hi : InBounds text pattern s) :
    (s.retry.getD (0, 0)).1 + (s.retry.getD (0, 0)).2 ≤ s.pattern + s.text := by
  cases hr : s.retry with
  | none => exact Nat.zero_le _
  | some retry =>
      obtain ⟨hresume, hfirst, _⟩ := hi.retry _ _ hr
      exact Nat.add_le_add hresume hfirst

/-- A wildcard and a retry move the place to retry from on, and else one more character of the pattern is
passed. -/
theorem Turn.budget_lt (h : Turn text pattern s (.inl s')) (hi : InBounds text pattern s)
    (hi' : InBounds text pattern s') : s'.budget text pattern < s.budget text pattern := by
  have hpattern := hi'.pattern_le
  have hretry := hi.retry_le
  cases h with
  | wildcard ht =>
      simp only [State.budget, Option.getD_some] at hpattern ⊢
      exact mul_add_lt _ (by omega) (by omega)
  | agree =>
      simp only [State.budget] at hpattern ⊢
      omega
  | retry ht _ _ hr =>
      have hpattern' := hi.pattern_le
      simp only [State.budget, hr, Option.getD_some] at hretry ⊢
      exact mul_add_lt _ (by omega) (by omega)

theorem After.budget_lt (h : After text pattern steps s)
    (hs : step text.toArray pattern.toArray s = .inl s') : s'.budget text pattern < s.budget text pattern :=
  (turn_of_step hs).budget_lt h.inBounds (h.next hs).inBounds

theorem After.steps_add_budget_le (h : After text pattern steps s) :
    steps + s.budget text pattern ≤ State.start.budget text pattern := by
  induction h with
  | start => exact Nat.le_of_eq (Nat.zero_add _)
  | next h hs ih =>
      have hless := h.budget_lt hs
      omega

/-! ## The end -/

/-- A run that has steps enough for a state gives the answer of a state that the matcher comes to. -/
theorem After.exists_answer {fuel : Nat} (h : After text pattern steps s)
    (hf : s.remaining text.toArray pattern.toArray < fuel) :
    ∃ steps s', After text pattern steps s' ∧
      step text.toArray pattern.toArray s' = .inr (run text.toArray pattern.toArray fuel s) := by
  -- The steps of a run are counted by its own bound, which every step lowers too.
  induction fuel generalizing steps s with
  | zero => cases hf
  | succ fuel ih =>
      have houtcome := step_outcome h.invariant
      rw [run]
      split
      · next s' hs =>
        rw [hs] at houtcome
        obtain ⟨_, _, hless⟩ := houtcome
        exact ih (h.next hs) (by omega)
      · next answer hs => exact ⟨steps, s, h, hs⟩

/-- At the end of the text the answer is read off the rest of the pattern, which begins inside it. -/
theorem After.exists_rest (h : After text pattern steps s) (ht : text.length ≤ s.text) :
    ∃ before rest, pattern = before ++ rest ∧ before.length = s.pattern ∧
      step text.toArray pattern.toArray s = .inr (rest.all (· = '%')) := by
  refine ⟨pattern.take s.pattern, pattern.drop s.pattern, (List.take_append_drop _ _).symm,
    List.length_take_of_le h.inBounds.pattern_le, ?_⟩
  rw [step, if_neg (by simpa using ht)]

/-- The states that the matcher comes to lie inside text and pattern, with the place to retry from, and where
the text ends, a part of the pattern is left for the answer. Each step lowers the budget of the state, so that
the matcher comes to its answer, after a number of steps that is quadratic in the lengths. -/
theorem matcher_ends (text pattern : List Char) :
    (∀ steps s, After text pattern steps s → InBounds text pattern s) ∧
    (∀ steps s s', After text pattern steps s → step text.toArray pattern.toArray s = .inl s' →
      s'.budget text pattern < s.budget text pattern) ∧
    (∀ steps s, After text pattern steps s → text.length ≤ s.text →
      ∃ before rest, pattern = before ++ rest ∧ before.length = s.pattern ∧
        step text.toArray pattern.toArray s = .inr (rest.all (· = '%'))) ∧
    ∃ steps s, After text pattern steps s ∧
      step text.toArray pattern.toArray s = .inr (like text pattern) ∧
      steps ≤ (text.length + pattern.length) * (pattern.length + 1) + pattern.length := by
  refine ⟨fun _ _ h => h.inBounds, fun _ _ _ h hs => h.budget_lt hs, fun _ _ h ht => h.exists_rest ht, ?_⟩
  have hstart : After text pattern 0 State.start := .start
  obtain ⟨steps, s, h, hanswer⟩ := hstart.exists_answer (Nat.lt_succ_self _)
  exact ⟨steps, s, h, hanswer, Nat.le_trans (Nat.le_add_right _ _) h.steps_add_budget_le⟩

/-- A wildcard that takes one character more after a first try: the state after three steps. -/
theorem matcher_ends_retried :
    let text := ['a', 'a', 'b']
    let pattern := ['%', 'a', 'b']
    After text pattern 3 ⟨1, 1, some (1, 1)⟩ ∧ InBounds text pattern ⟨1, 1, some (1, 1)⟩ ∧
      (State.mk 2 2 (some (1, 1))).budget text pattern < (State.mk 1 1 (some (1, 1))).budget text pattern ∧
      (∃ before rest, pattern = before ++ rest ∧ before.length = 3 ∧
        step text.toArray pattern.toArray ⟨3, 3, some (1, 1)⟩ = .inr (rest.all (· = '%'))) ∧
      ∃ steps s, After text pattern steps s ∧ step text.toArray pattern.toArray s = .inr true ∧ steps ≤ 27 := by
  intro text pattern
  obtain ⟨hbounds, hless, hrest, hends⟩ := matcher_ends text pattern
  have hretried : After text pattern 3 ⟨1, 1, some (1, 1)⟩ := ((After.start.next rfl).next rfl).next rfl
  have hlast : After text pattern 5 ⟨3, 3, some (1, 1)⟩ := (hretried.next rfl).next rfl
  exact ⟨hretried, hbounds _ _ hretried, hless _ _ _ hretried rfl, hrest _ _ hlast (Nat.le_refl 3), hends⟩

end RecordSearch.Like

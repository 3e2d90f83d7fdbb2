import RecordSearch.Predicate.Like
import RecordSearch.Store.Sql

/-!
# Patterns match by retrying the last wildcard

The matcher that keeps only the last wildcard answers as the definition by all ways to read the pattern.
Each step keeps what the state can still accept and comes closer to the end. Both accept a text just if it is
made of pieces, each of which is what its character of the pattern stands for.
-/

namespace RecordSearch

namespace Sql

variable {p t : List Char}

theorem matchesPattern_wildcard_nil (p : List Char) :
    matchesPattern ('%' :: p) [] = matchesPattern p [] := rfl

/-- A wildcard takes nothing, or the first character. -/
theorem matchesPattern_wildcard_cons (p : List Char) (c : Char) (t : List Char) :
    matchesPattern ('%' :: p) (c :: t) = (matchesPattern p (c :: t) || matchesPattern ('%' :: p) t) := rfl

theorem matchesPattern_cons {c : Char} (hc : c ≠ '%') (p t : List Char) :
    matchesPattern (c :: p) t =
      match t with
      | [] => false
      | d :: t => decide (c = '_' ∨ c = d) && matchesPattern p t := by
  cases t with
  | nil => simp [matchesPattern]
  | cons d t => simp [matchesPattern]

theorem matchesPattern_cons_cons {c : Char} (hc : c ≠ '%') (p : List Char) (d : Char) (t : List Char) :
    matchesPattern (c :: p) (d :: t) = (decide (c = '_' ∨ c = d) && matchesPattern p t) :=
  matchesPattern_cons hc p (d :: t)

theorem matchesPattern_nil_right (p : List Char) : matchesPattern p [] = p.all (· = '%') := by
  induction p with
  | nil => rfl
  | cons c p ih =>
      by_cases hc : c = '%'
      · subst hc
        rw [matchesPattern_wildcard_nil, ih]
        rfl
      · rw [matchesPattern_cons hc]
        simp [hc]

theorem matchesPattern_wildcard_of (h : matchesPattern p t = true) : matchesPattern ('%' :: p) t = true := by
  cases t with
  | nil => exact h
  | cons c t => rw [matchesPattern_wildcard_cons, h, Bool.true_or]

/-- What a wildcard with the rest of the pattern matches late in a text, it matches early. -/
theorem matchesPattern_wildcard_of_drop {k : Nat} (h : matchesPattern ('%' :: p) (t.drop k) = true) :
    matchesPattern ('%' :: p) t = true := by
  induction k generalizing t with
  | zero => exact h
  | succ k ih =>
      cases t with
      | nil => simpa using h
      | cons c t =>
          rw [List.drop_succ_cons] at h
          rw [matchesPattern_wildcard_cons, ih h, Bool.or_true]

theorem exists_drop_of_matchesPattern_wildcard (h : matchesPattern ('%' :: p) t = true) :
    ∃ k, matchesPattern p (t.drop k) = true := by
  induction t with
  | nil => exact ⟨0, h⟩
  | cons c t ih =>
      rw [matchesPattern_wildcard_cons, Bool.or_eq_true] at h
      rcases h with h | h
      · exact ⟨0, h⟩
      · obtain ⟨k, hk⟩ := ih h
        exact ⟨k + 1, hk⟩

/-- A piece of a pattern without wildcards takes as many characters as it has. -/
theorem matchesPattern_append {w : List Char} (hw : '%' ∉ w) (h : matchesPattern (w ++ p) t = true) :
    w.length ≤ t.length ∧ matchesPattern p (t.drop w.length) = true := by
  induction w generalizing t with
  | nil => exact ⟨Nat.zero_le _, h⟩
  | cons c w ih =>
      simp only [List.mem_cons, not_or] at hw
      cases t with
      | nil =>
          rw [List.cons_append, matchesPattern_cons (Ne.symm hw.1)] at h
          cases h
      | cons d t =>
          rw [List.cons_append, matchesPattern_cons_cons (Ne.symm hw.1), Bool.and_eq_true] at h
          obtain ⟨hl, hm⟩ := ih hw.2 h.2
          exact ⟨Nat.succ_le_succ hl, hm⟩

end Sql

namespace Like

variable {text pattern : List Char} {s : State}

/-- The state lies inside text and pattern, and the pattern since the last wildcard has none and has
been matched character by character. -/
structure Invariant (text pattern : List Char) (s : State) : Prop where
  text_le : s.text ≤ text.length
  pattern_le : s.pattern ≤ pattern.length
  since_retry : ∀ resume first, s.retry = some (resume, first) →
    resume ≤ s.pattern ∧ s.text + resume = first + s.pattern ∧
      '%' ∉ (pattern.drop resume).take (s.pattern - resume)

/-- What is left of the text matches what is left of the pattern, or the text matches with the last
wildcard taking more characters. -/
def Accepts (text pattern : List Char) (s : State) : Prop :=
  Sql.matchesPattern (pattern.drop s.pattern) (text.drop s.text) = true ∨
    ∃ resume first, s.retry = some (resume, first) ∧ first < text.length ∧
      Sql.matchesPattern ('%' :: pattern.drop resume) (text.drop (first + 1)) = true

/-- A later start for the last wildcard lets the rest of the pattern match further on in the text. -/
theorem Invariant.rest_of_retry {resume first : Nat} (hi : Invariant text pattern s)
    (hr : s.retry = some (resume, first)) (hf : first < text.length)
    (h : Sql.matchesPattern ('%' :: pattern.drop resume) (text.drop (first + 1)) = true) :
    ∃ k, s.text < text.length ∧
      Sql.matchesPattern (pattern.drop s.pattern) (text.drop (s.text + k)) = true := by
  obtain ⟨hle, hsum, hw⟩ := hi.since_retry _ _ hr
  obtain ⟨k, hk⟩ := Sql.exists_drop_of_matchesPattern_wildcard h
  have hlen : ((pattern.drop resume).take (s.pattern - resume)).length = s.pattern - resume := by
    have := hi.pattern_le
    rw [List.length_take, List.length_drop]
    omega
  have hsplit : pattern.drop resume =
      (pattern.drop resume).take (s.pattern - resume) ++ pattern.drop s.pattern := by
    have hdrop : (pattern.drop resume).drop (s.pattern - resume) = pattern.drop s.pattern := by
      rw [List.drop_drop]
      congr 1
      omega
    rw [← hdrop, List.take_append_drop]
  rw [hsplit] at hk
  obtain ⟨hl, hm⟩ := Sql.matchesPattern_append hw hk
  rw [hlen, List.drop_drop, List.drop_drop] at hm
  rw [hlen, List.length_drop, List.length_drop] at hl
  refine ⟨k + 1, by omega, ?_⟩
  have he : s.text + (k + 1) = first + 1 + (k + (s.pattern - resume)) := by omega
  rw [he]
  exact hm

/-! ## Steps -/

/-- What one step does, by what it finds at the state. -/
inductive Turn (text pattern : List Char) (s : State) : State ⊕ Bool → Prop
  | wildcard (ht : s.text < text.length) (hp : pattern[s.pattern]? = some '%') :
      Turn text pattern s (.inl ⟨s.text, s.pattern + 1, some (s.pattern + 1, s.text)⟩)
  | agree (ht : s.text < text.length) (hw : pattern[s.pattern]? ≠ some '%')
      (hp : pattern[s.pattern]? = some '_' ∨ pattern[s.pattern]? = text[s.text]?) :
      Turn text pattern s (.inl ⟨s.text + 1, s.pattern + 1, s.retry⟩)
  | retry {resume first : Nat} (ht : s.text < text.length) (hw : pattern[s.pattern]? ≠ some '%')
      (hp : ¬ (pattern[s.pattern]? = some '_' ∨ pattern[s.pattern]? = text[s.text]?))
      (hr : s.retry = some (resume, first)) :
      Turn text pattern s (.inl ⟨first + 1, resume, some (resume, first + 1)⟩)
  | fail (ht : s.text < text.length) (hw : pattern[s.pattern]? ≠ some '%')
      (hp : ¬ (pattern[s.pattern]? = some '_' ∨ pattern[s.pattern]? = text[s.text]?))
      (hr : s.retry = none) : Turn text pattern s (.inr false)
  | finish (ht : ¬ s.text < text.length) :
      Turn text pattern s (.inr ((pattern.drop s.pattern).all (· = '%')))

theorem turn_step (text pattern : List Char) (s : State) :
    Turn text pattern s (step text.toArray pattern.toArray s) := by
  unfold step
  simp only [List.size_toArray, List.getElem?_toArray]
  split
  · next ht =>
    split
    · next hp => exact .wildcard ht hp
    · next hw =>
      split
      · next hp => exact .agree ht hw hp
      · next hp =>
        split
        · next resume first hr => exact .retry ht hw hp hr
        · next hr => exact .fail ht hw hp hr
  · next ht => exact .finish ht

/-- Of two numbers with one more digit each, the one with the greater leading part is greater. -/
theorem mul_add_lt {a b w x : Nat} (y : Nat) (hab : a < b) (hx : x < w) : a * w + x < b * w + y := by
  have h := Nat.mul_le_mul_right w (Nat.succ_le_of_lt hab)
  rw [Nat.succ_mul] at h
  omega

theorem start_invariant (text pattern : List Char) : Invariant text pattern State.start :=
  ⟨Nat.zero_le _, Nat.zero_le _, nofun⟩

/-- What a step does: it ends with the answer, or goes on to a state that accepts the same. -/
def Outcome (text pattern : List Char) (s : State) : State ⊕ Bool → Prop
  | .inl s' => Invariant text pattern s' ∧ (Accepts text pattern s' ↔ Accepts text pattern s) ∧
      s'.remaining text.toArray pattern.toArray < s.remaining text.toArray pattern.toArray
  | .inr answer => answer = true ↔ Accepts text pattern s

/-- At the end of the text only wildcards may be left. -/
theorem step_end (hi : Invariant text pattern s) (ht : ¬ s.text < text.length) :
    (pattern.drop s.pattern).all (· = '%') = true ↔ Accepts text pattern s := by
  have hdrop : text.drop s.text = [] := List.drop_eq_nil_iff.mpr (Nat.le_of_not_lt ht)
  rw [Accepts, hdrop, Sql.matchesPattern_nil_right]
  constructor
  · exact .inl
  · rintro (h | ⟨resume, first, hr, hf, h⟩)
    · exact h
    · obtain ⟨_, hlt, _⟩ := hi.rest_of_retry hr hf h
      exact absurd hlt ht

/-- A wildcard is met: it becomes the last one, and earlier ones are no longer needed. -/
theorem step_wildcard (hi : Invariant text pattern s) (ht : s.text < text.length)
    (hp : pattern[s.pattern]? = some '%') :
    Outcome text pattern s (.inl ⟨s.text, s.pattern + 1, some (s.pattern + 1, s.text)⟩) := by
  obtain ⟨hlt, he⟩ := List.getElem?_eq_some_iff.mp hp
  have hpattern : pattern.drop s.pattern = '%' :: pattern.drop (s.pattern + 1) := by
    rw [List.drop_eq_getElem_cons hlt, he]
  have htext := List.drop_eq_getElem_cons ht
  refine ⟨⟨hi.text_le, hlt, ?_⟩, ?_, ?_⟩
  · intro resume first h
    cases h
    exact ⟨Nat.le_refl _, rfl, by simp⟩
  · have hold : Accepts text pattern s ↔
        Sql.matchesPattern (pattern.drop s.pattern) (text.drop s.text) = true := by
      constructor
      · rintro (h | ⟨resume, first, hr, hf, h⟩)
        · exact h
        · obtain ⟨k, _, hk⟩ := hi.rest_of_retry hr hf h
          rw [← List.drop_drop] at hk
          rw [hpattern] at hk ⊢
          exact Sql.matchesPattern_wildcard_of_drop hk
      · exact .inl
    rw [hold, hpattern, htext, Sql.matchesPattern_wildcard_cons, Bool.or_eq_true, ← htext]
    constructor
    · rintro (h | ⟨_, _, hr, _, h⟩)
      · exact .inl h
      · cases hr
        exact .inr h
    · rintro (h | h)
      · exact .inl h
      · exact .inr ⟨_, _, rfl, ht, h⟩
  · have hresume : (s.retry.getD (0, 0)).1 ≤ s.pattern := by
      cases hr : s.retry with
      | none => exact Nat.zero_le _
      | some retry => exact (hi.since_retry _ _ hr).1
    simp only [State.remaining, List.size_toArray, Option.getD_some]
    refine mul_add_lt _ (mul_add_lt _ ?_ ?_) ?_
    · omega
    · omega
    · omega

theorem step_match (hi : Invariant text pattern s) (ht : s.text < text.length)
    (hw : pattern[s.pattern]? ≠ some '%')
    (hp : pattern[s.pattern]? = some '_' ∨ pattern[s.pattern]? = text[s.text]?) :
    Outcome text pattern s (.inl ⟨s.text + 1, s.pattern + 1, s.retry⟩) := by
  obtain ⟨c, hc, hcd⟩ : ∃ c, pattern[s.pattern]? = some c ∧ (c = '_' ∨ c = text[s.text]) := by
    rcases hp with hp | hp
    · exact ⟨'_', hp, .inl rfl⟩
    · exact ⟨text[s.text], by rw [hp, List.getElem?_eq_getElem ht], .inr rfl⟩
  have hne : c ≠ '%' := fun e => hw (by rw [hc, e])
  obtain ⟨hlt, he⟩ := List.getElem?_eq_some_iff.mp hc
  have hpattern : pattern.drop s.pattern = c :: pattern.drop (s.pattern + 1) := by
    rw [List.drop_eq_getElem_cons hlt, he]
  have htext := List.drop_eq_getElem_cons ht
  refine ⟨⟨ht, hlt, ?_⟩, ?_, ?_⟩
  · intro resume first h
    obtain ⟨hle, hsum, hseg⟩ := hi.since_retry _ _ h
    refine ⟨Nat.le_succ_of_le hle, by simp only; omega, ?_⟩
    have hnext : (pattern.drop resume)[s.pattern - resume]? = some c := by
      rw [List.getElem?_drop, show resume + (s.pattern - resume) = s.pattern by omega, hc]
    have hsucc : s.pattern + 1 - resume = (s.pattern - resume) + 1 := by omega
    rw [hsucc, List.take_add_one, hnext]
    simp [hseg, Ne.symm hne]
  · have hfirst : Sql.matchesPattern (pattern.drop s.pattern) (text.drop s.text) =
        Sql.matchesPattern (pattern.drop (s.pattern + 1)) (text.drop (s.text + 1)) := by
      rw [hpattern, htext, Sql.matchesPattern_cons_cons hne]
      simp [hcd]
    simp only [Accepts, hfirst]
  · simp only [State.remaining, List.size_toArray]
    omega

theorem matchesPattern_mismatch (ht : s.text < text.length) (hw : pattern[s.pattern]? ≠ some '%')
    (hp : ¬ (pattern[s.pattern]? = some '_' ∨ pattern[s.pattern]? = text[s.text]?)) :
    Sql.matchesPattern (pattern.drop s.pattern) (text.drop s.text) = false := by
  rw [List.drop_eq_getElem_cons ht]
  rw [List.getElem?_eq_getElem ht] at hp
  cases hc : pattern[s.pattern]? with
  | none =>
      rw [List.drop_eq_nil_iff.mpr (List.getElem?_eq_none_iff.mp hc)]
      rfl
  | some c =>
      rw [hc] at hw hp
      obtain ⟨hlt, he⟩ := List.getElem?_eq_some_iff.mp hc
      have hne : c ≠ '%' := fun e => hw (congrArg some e)
      simp only [Option.some.injEq] at hp
      rw [List.drop_eq_getElem_cons hlt, he, Sql.matchesPattern_cons_cons hne]
      simp [hp]

/-- The next characters do not agree: the last wildcard takes one character more. -/
theorem step_retry (hi : Invariant text pattern s) (ht : s.text < text.length)
    (hw : pattern[s.pattern]? ≠ some '%')
    (hp : ¬ (pattern[s.pattern]? = some '_' ∨ pattern[s.pattern]? = text[s.text]?))
    {resume first : Nat} (hr : s.retry = some (resume, first)) :
    Outcome text pattern s (.inl ⟨first + 1, resume, some (resume, first + 1)⟩) := by
  obtain ⟨hle, hsum, _⟩ := hi.since_retry _ _ hr
  have hpattern := hi.pattern_le
  have hfirst : first < text.length := by omega
  refine ⟨⟨hfirst, Nat.le_trans hle hpattern, ?_⟩, ?_, ?_⟩
  · intro resume' first' h
    cases h
    exact ⟨Nat.le_refl _, rfl, by simp⟩
  · have hold : Accepts text pattern s ↔
        Sql.matchesPattern ('%' :: pattern.drop resume) (text.drop (first + 1)) = true := by
      constructor
      · rintro (h | ⟨_, _, hr', _, h⟩)
        · rw [matchesPattern_mismatch ht hw hp] at h
          cases h
        · rw [hr] at hr'
          cases hr'
          exact h
      · exact fun h => .inr ⟨_, _, hr, hfirst, h⟩
    rw [hold]
    constructor
    · rintro (h | ⟨_, _, hr', hf, h⟩)
      · exact Sql.matchesPattern_wildcard_of h
      · cases hr'
        rw [← List.drop_drop (j := first + 1) (i := 1)] at h
        exact Sql.matchesPattern_wildcard_of_drop h
    · intro h
      rcases Nat.lt_or_ge (first + 1) text.length with hf | hf
      · rw [List.drop_eq_getElem_cons hf, Sql.matchesPattern_wildcard_cons, Bool.or_eq_true,
          ← List.drop_eq_getElem_cons hf] at h
        rcases h with h | h
        · exact .inl h
        · exact .inr ⟨_, _, rfl, hf, h⟩
      · rw [List.drop_eq_nil_iff.mpr hf] at h
        refine .inl ?_
        rw [List.drop_eq_nil_iff.mpr hf]
        exact h
  · simp only [State.remaining, List.size_toArray, hr, Option.getD_some]
    exact mul_add_lt _ (by omega) (by omega)

theorem step_fail (ht : s.text < text.length) (hw : pattern[s.pattern]? ≠ some '%')
    (hp : ¬ (pattern[s.pattern]? = some '_' ∨ pattern[s.pattern]? = text[s.text]?))
    (hr : s.retry = none) : Outcome text pattern s (.inr false) := by
  simp [Outcome, Accepts, matchesPattern_mismatch ht hw hp, hr]

theorem Turn.outcome {next : State ⊕ Bool} (h : Turn text pattern s next) (hi : Invariant text pattern s) :
    Outcome text pattern s next := by
  cases h with
  | wildcard ht hp => exact step_wildcard hi ht hp
  | agree ht hw hp => exact step_match hi ht hw hp
  | retry ht hw hp hr => exact step_retry hi ht hw hp hr
  | fail ht hw hp hr => exact step_fail ht hw hp hr
  | finish ht => exact step_end hi ht

theorem step_outcome (hi : Invariant text pattern s) :
    Outcome text pattern s (step text.toArray pattern.toArray s) :=
  (turn_step text pattern s).outcome hi

theorem run_eq_true_iff {fuel : Nat} (hi : Invariant text pattern s)
    (hf : s.remaining text.toArray pattern.toArray < fuel) :
    run text.toArray pattern.toArray fuel s = true ↔ Accepts text pattern s := by
  induction fuel generalizing s with
  | zero => cases hf
  | succ fuel ih =>
      have h := step_outcome hi
      rw [run]
      split
      · next s' hs =>
        rw [hs] at h
        obtain ⟨hi', hsame, hless⟩ := h
        rw [ih hi' (by omega), hsame]
      · next answer hs =>
        rw [hs] at h
        exact h

end Like

theorem like_eq_matchesPattern (text pattern : List Char) :
    like text pattern = Sql.matchesPattern pattern text := by
  rw [Bool.eq_iff_iff, like, Like.run_eq_true_iff (Like.start_invariant text pattern) (Nat.lt_succ_self _)]
  simp [Like.Accepts, Like.State.start]

/-! ## What patterns say -/

namespace Like

/-- What a character of a pattern stands for: `%` for any run of characters, `_` for one character and every
other character for itself. -/
def StandsFor (c : Char) (s : List Char) : Prop :=
  if c = '%' then True else if c = '_' then s.length = 1 else s = [c]

/-- The text is made of pieces, one for each character of the pattern and each what its character stands
for. -/
def Matches (pattern text : List Char) : Prop :=
  ∃ pieces : List (Char × List Char), pieces.map (·.1) = pattern ∧ pieces.flatMap (·.2) = text ∧
    ∀ piece ∈ pieces, StandsFor piece.1 piece.2

variable {c : Char} {p s t : List Char}

theorem standsFor_wildcard (s : List Char) : StandsFor '%' s := trivial

theorem standsFor_iff (hc : c ≠ '%') : StandsFor c s ↔ ∃ d, s = [d] ∧ (c = '_' ∨ c = d) := by
  unfold StandsFor
  rw [if_neg hc]
  split
  · next ho => simp [List.length_eq_one_iff, ho]
  · next ho => simp [ho]

theorem matches_nil : Matches [] t ↔ t = [] := by
  constructor
  · rintro ⟨pieces, hp, rfl, _⟩
    rw [List.map_eq_nil_iff.mp hp]
    rfl
  · rintro rfl
    exact ⟨[], rfl, rfl, List.forall_mem_nil _⟩

/-- The first character of a pattern stands for the beginning of the text. -/
theorem matches_cons : Matches (c :: p) t ↔ ∃ s r, StandsFor c s ∧ Matches p r ∧ s ++ r = t := by
  constructor
  · rintro ⟨pieces, hp, rfl, hall⟩
    obtain ⟨⟨d, s⟩, rest, rfl, rfl, rfl⟩ := List.map_eq_cons_iff.mp hp
    rw [List.forall_mem_cons] at hall
    exact ⟨s, rest.flatMap (·.2), hall.1, ⟨rest, rfl, rfl, hall.2⟩, rfl⟩
  · rintro ⟨s, r, hs, ⟨pieces, rfl, rfl, hall⟩, rfl⟩
    exact ⟨(c, s) :: pieces, rfl, rfl, List.forall_mem_cons.mpr ⟨hs, hall⟩⟩

end Like

/-- The definition by all ways to read a pattern says what its characters stand for. -/
theorem Sql.matchesPattern_iff {p t : List Char} : Sql.matchesPattern p t = true ↔ Like.Matches p t := by
  induction p generalizing t with
  | nil =>
      rw [Like.matches_nil]
      cases t <;> simp [matchesPattern]
  | cons c p ih =>
      rw [Like.matches_cons]
      by_cases hc : c = '%'
      · subst hc
        constructor
        · intro h
          obtain ⟨k, hk⟩ := exists_drop_of_matchesPattern_wildcard h
          exact ⟨t.take k, t.drop k, Like.standsFor_wildcard _, ih.mp hk, List.take_append_drop k t⟩
        · rintro ⟨s, r, _, hr, rfl⟩
          refine matchesPattern_wildcard_of_drop (k := s.length) ?_
          rw [List.drop_left]
          exact matchesPattern_wildcard_of (ih.mpr hr)
      · rw [matchesPattern_cons hc]
        cases t with
        | nil => simp [Like.standsFor_iff hc]
        | cons d t =>
          rw [Bool.and_eq_true, decide_eq_true_iff, ih]
          constructor
          · rintro ⟨hcd, h⟩
            exact ⟨[d], t, (Like.standsFor_iff hc).mpr ⟨d, rfl, hcd⟩, h, rfl⟩
          · rintro ⟨s, r, hs, hr, he⟩
            obtain ⟨d, rfl, hcd⟩ := (Like.standsFor_iff hc).mp hs
            cases he
            exact ⟨hcd, hr⟩

/-- The matcher accepts a text just if it is made of what the characters of the pattern stand for. -/
theorem like_iff_matches (text pattern : List Char) :
    like text pattern = true ↔ Like.Matches pattern text := by
  rw [like_eq_matchesPattern, Sql.matchesPattern_iff]

end RecordSearch

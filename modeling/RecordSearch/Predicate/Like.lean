/-!
# Patterns with wildcards

Matching of a whole text against a pattern in which `%` stands for any run of characters and `_` for
exactly one. The matcher walks through both from the left and remembers the last `%`: where it cannot
go on, it lets that wildcard take one more character and retries from there.
-/

namespace RecordSearch.Like

structure State where
  /-- The number of characters of the text behind it. -/
  text : Nat
  /-- The number of characters of the pattern behind it. -/
  pattern : Nat
  /-- The position after the last `%` and the position in the text where what follows it begins. -/
  retry : Option (Nat × Nat)
  deriving DecidableEq, Repr

def State.start : State := ⟨0, 0, none⟩

/-- One step: a new state, or the answer. -/
def step (text pattern : Array Char) (s : State) : State ⊕ Bool :=
  if s.text < text.size then
    if pattern[s.pattern]? = some '%' then
      .inl ⟨s.text, s.pattern + 1, some (s.pattern + 1, s.text)⟩
    else if pattern[s.pattern]? = some '_' ∨ pattern[s.pattern]? = text[s.text]? then
      .inl ⟨s.text + 1, s.pattern + 1, s.retry⟩
    else match s.retry with
      | some (resume, first) => .inl ⟨first + 1, resume, some (resume, first + 1)⟩
      | none => .inr false
  else .inr ((pattern.toList.drop s.pattern).all (· = '%'))

/-- A bound on the number of steps from a state: wildcards still to come count most, then the characters
the last wildcard can still take, then what is left to compare. -/
def State.remaining (text pattern : Array Char) (s : State) : Nat :=
  let (resume, first) := s.retry.getD (0, 0)
  ((pattern.size + 1 - resume) * (text.size + 2) + (text.size + 1 - first)) *
      (text.size + pattern.size + 1) + ((text.size - s.text) + (pattern.size - s.pattern))

def run (text pattern : Array Char) : Nat → State → Bool
  | 0, _ => false
  | fuel + 1, s =>
      match step text pattern s with
      | .inl s => run text pattern fuel s
      | .inr answer => answer

end Like

/-- Whether the text as a whole matches the pattern. -/
def like (text pattern : List Char) : Bool :=
  let t := text.toArray
  let p := pattern.toArray
  Like.run t p (Like.State.start.remaining t p + 1) Like.State.start

end RecordSearch

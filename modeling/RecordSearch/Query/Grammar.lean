import RecordSearch.Query.Criterion

/-!
# Query strings

A query is a list of groups `key operator value`, separated by commas. A key is a run of letters,
digits, underscores and points; an operator is the first of the grammar's literals that a value can
follow; a value goes up to the next comma, has at least one character, which may itself be a comma,
and no line break. What does not form a group is skipped.
-/

namespace RecordSearch

/-- The operator literals of a query language, in the order in which they are tried. -/
structure Grammar where
  operators : List (List Char)
  deriving DecidableEq, Repr

def Grammar.user : Grammar := ⟨[[':', '~'], [':'], ['=']]⟩

def Grammar.application : Grammar := ⟨[[':', '='], [':', '~'], [':'], ['='], ['<'], ['>']]⟩

namespace Query

structure Group where
  key : List Char
  operator : List Char
  value : List Char
  deriving DecidableEq, Repr

def isKeyChar (c : Char) : Bool := c.isAlphanum || c = '_' || c = '.'

/-- The text after a literal, if the text begins with it. -/
def afterLiteral? : List Char → List Char → Option (List Char)
  | [], s => some s
  | _ :: _, [] => none
  | c :: literal, d :: s => if c = d then afterLiteral? literal s else none

/-- Reads a value and the comma that ends it. -/
def value? : List Char → Option (List Char × List Char)
  | [] => none
  | c :: s =>
      let body := s.takeWhile (· ≠ ',')
      match s.dropWhile (· ≠ ',') with
      | [] => none
      | _ :: rest => if c = '\n' ∨ '\n' ∈ body then none else some (c :: body, rest)

def operation? (literal s : List Char) : Option (List Char × List Char × List Char) := do
  let s ← afterLiteral? literal s
  let (value, rest) ← value? s
  some (literal, value, rest)

theorem length_of_afterLiteral? {literal s rest : List Char}
    (h : afterLiteral? literal s = some rest) : rest.length ≤ s.length := by
  fun_induction afterLiteral? literal s with
  | case1 => simp_all
  | case2 => simp at h
  | case3 _ _ _ ih => exact Nat.le_succ_of_le (ih h)
  | case4 => simp at h

theorem length_of_value? {s value rest : List Char} (h : value? s = some (value, rest)) :
    rest.length < s.length := by
  unfold value? at h
  split at h
  · simp at h
  · next c s =>
      have hl := (List.dropWhile_sublist (l := s) (· ≠ ',')).length_le
      dsimp only at h
      split at h
      · simp at h
      · next e =>
          rw [e] at hl
          split at h
          · simp at h
          · simp only [Option.some.injEq, Prod.mk.injEq] at h
            obtain ⟨_, rfl⟩ := h
            simp only [List.length_cons] at hl ⊢
            omega

theorem length_of_operation? {literal s o v rest : List Char}
    (h : operation? literal s = some (o, v, rest)) : rest.length < s.length := by
  simp only [operation?, Option.bind_eq_bind, Option.bind_eq_some_iff, Option.some.injEq,
    Prod.mk.injEq] at h
  obtain ⟨t, ht, ⟨w, r⟩, hv, _, _, rfl⟩ := h
  exact Nat.lt_of_lt_of_le (length_of_value? hv) (length_of_afterLiteral? ht)

/-- The groups of a text in which the last group, too, ends with a comma. -/
def groups (grammar : Grammar) (s : List Char) : List Group :=
  match s with
  | [] => []
  | c :: s' =>
      if isKeyChar c then
        match _h : grammar.operators.findSome? (operation? · (s'.dropWhile isKeyChar)) with
        | some (operator, value, rest) =>
            ⟨c :: s'.takeWhile isKeyChar, operator, value⟩ :: groups grammar rest
        | none => groups grammar (s'.dropWhile isKeyChar)
      else groups grammar s'
termination_by s.length
decreasing_by
  · obtain ⟨literal, _, hl⟩ := List.exists_of_findSome?_eq_some _h
    have := length_of_operation? hl
    have := (List.dropWhile_sublist (l := s') isKeyChar).length_le
    simp only [List.length_cons]
    omega
  · have := (List.dropWhile_sublist (l := s') isKeyChar).length_le
    simp only [List.length_cons]
    omega
  · simp

def Group.criterion (g : Group) (orWithPrevious : Bool) : Criterion :=
  ⟨String.ofList g.key, String.ofList g.operator, .text (String.ofList g.value), orWithPrevious⟩

/-- The criteria of a query string, all joined the same way. -/
def parse (grammar : Grammar) (raw : String) (orWithPrevious : Bool) : List Criterion :=
  (groups grammar (raw.toList ++ [','])).map (·.criterion orWithPrevious)

end Query

end RecordSearch

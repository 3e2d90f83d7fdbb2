/-!
# Segments

A text cut at every occurrence of a separator. Main statements: no segment holds the separator
(`not_mem_of_mem_segments`), and joining the segments again gives the text (`join_segments`).
-/

namespace RecordSearch.Text

/-- The parts of a text between separators; a text without separators is one segment. -/
def segments (separator : Char) : List Char → List (List Char)
  | [] => [[]]
  | c :: s =>
      if c = separator then [] :: segments separator s
      else match segments separator s with
        | [] => [[c]]
        | segment :: rest => (c :: segment) :: rest

def join (separator : Char) : List (List Char) → List Char
  | [] => []
  | [segment] => segment
  | segment :: next :: rest => segment ++ separator :: join separator (next :: rest)

theorem segments_ne_nil (separator : Char) (s : List Char) : segments separator s ≠ [] := by
  cases s with
  | nil => simp [segments]
  | cons c s =>
      unfold segments
      split
      · simp
      · split <;> simp

theorem not_mem_of_mem_segments {separator : Char} {s segment : List Char}
    (h : segment ∈ segments separator s) : separator ∉ segment := by
  induction s generalizing segment with
  | nil =>
      rw [segments, List.mem_singleton] at h
      simp [h]
  | cons c s ih =>
      unfold segments at h
      split at h
      · rcases List.mem_cons.mp h with rfl | h
        · simp
        · exact ih h
      · next hc =>
        split at h
        · next e => exact absurd e (segments_ne_nil separator s)
        · next first rest e =>
          rcases List.mem_cons.mp h with rfl | h
          · rw [List.mem_cons, not_or]
            exact ⟨fun h => hc h.symm, ih (e ▸ List.mem_cons_self)⟩
          · exact ih (e ▸ List.mem_cons_of_mem first h)

theorem join_cons_of_ne_nil (separator : Char) (segment : List Char) {rest : List (List Char)}
    (h : rest ≠ []) : join separator (segment :: rest) = segment ++ separator :: join separator rest := by
  cases rest with
  | nil => exact absurd rfl h
  | cons t ts => rfl

theorem join_cons_cons (separator c : Char) (segment : List Char) (rest : List (List Char)) :
    join separator ((c :: segment) :: rest) = c :: join separator (segment :: rest) := by
  cases rest <;> rfl

theorem join_segments (separator : Char) (s : List Char) :
    join separator (segments separator s) = s := by
  induction s with
  | nil => rfl
  | cons c s ih =>
      have hne := segments_ne_nil separator s
      unfold segments
      split
      · next h => rw [join_cons_of_ne_nil separator [] hne, ih, h]; rfl
      · split
        · next e => exact absurd e hne
        · next segment rest e => rw [join_cons_cons, ← e, ih]

/-- A line without the carriage return at its end. -/
def dropReturn (line : List Char) : List Char :=
  if line.getLast? = some '\r' then line.dropLast else line

/-- The lines of a text. Each ends with a line feed, before which a carriage return does not count;
what follows the last line feed is a line if it is not empty. -/
def lines (s : List Char) : List (List Char) :=
  let parts := segments '\n' s
  let unfinished := parts.getLast?.getD []
  parts.dropLast.map dropReturn ++ (if unfinished = [] then [] else [unfinished])

end RecordSearch.Text

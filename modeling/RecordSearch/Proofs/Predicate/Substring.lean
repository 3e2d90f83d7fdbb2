import RecordSearch.Operator.Basic
import RecordSearch.Predicate.Eval
import RecordSearch.Proofs.Predicate.Like
import RecordSearch.Proofs.Text

/-!
# Patterns for parts of texts

The pattern that an operator makes of a value has a wildcard at either end. If the value has none itself,
the pattern matches the texts that contain the value as it is.
-/

namespace RecordSearch

open Text

namespace Like

variable {c : Char} {p s t v w : List Char}

theorem standsFor_self (c : Char) : StandsFor c [c] := by
  unfold StandsFor
  split
  · trivial
  · split <;> rfl

/-- A wildcard takes any beginning of the text. -/
theorem matches_wildcard_cons : Matches ('%' :: p) t ↔ ∃ s r, Matches p r ∧ s ++ r = t := by
  simp only [matches_cons, standsFor_wildcard, true_and]

theorem matches_wildcard (t : List Char) : Matches ['%'] t :=
  matches_wildcard_cons.mpr ⟨t, [], matches_nil.mpr rfl, List.append_nil t⟩

/-- No character stands for anything but itself. -/
def Literal (s : List Char) : Prop := '%' ∉ s ∧ '_' ∉ s

instance (s : List Char) : Decidable (Literal s) := inferInstanceAs (Decidable (_ ∧ _))

theorem literal_cons : Literal (c :: v) ↔ (c ≠ '%' ∧ c ≠ '_') ∧ Literal v := by
  simp only [Literal, List.mem_cons, not_or, ne_comm (a := c)]
  exact and_and_and_comm

theorem Literal.lowercase (h : Literal v) : Literal (Text.lowercase v) :=
  ⟨fun hm => h.1 (mem_of_mem_lowercase (by decide) hm), fun hm => h.2 (mem_of_mem_lowercase (by decide) hm)⟩

/-- A part of a pattern without wildcards stands for itself. -/
theorem Literal.matches_append_iff (h : Literal v) : Matches (v ++ p) t ↔ ∃ r, Matches p r ∧ v ++ r = t := by
  induction v generalizing t with
  | nil => simp
  | cons c v ih =>
      obtain ⟨⟨hany, hone⟩, hv⟩ := literal_cons.mp h
      have hc (s : List Char) : StandsFor c s ↔ s = [c] := by rw [StandsFor, if_neg hany, if_neg hone]
      rw [List.cons_append, matches_cons]
      constructor
      · rintro ⟨s, r, hs, hr, rfl⟩
        obtain ⟨rest, hrest, rfl⟩ := (ih hv).mp hr
        exact ⟨rest, hrest, by rw [(hc s).mp hs]; rfl⟩
      · rintro ⟨r, hr, rfl⟩
        exact ⟨[c], v ++ r, (hc [c]).mpr rfl, (ih hv).mpr ⟨r, hr, rfl⟩, rfl⟩

/-- Between wildcards a text without wildcards matches the texts that it is a part of. -/
theorem Literal.matches_containing_iff (h : Literal v) : Matches ('%' :: (v ++ ['%'])) t ↔ v <:+: t := by
  rw [matches_wildcard_cons]
  constructor
  · rintro ⟨before, r, hr, rfl⟩
    obtain ⟨after, _, rfl⟩ := h.matches_append_iff.mp hr
    exact ⟨before, after, List.append_assoc before v after⟩
  · rintro ⟨before, after, rfl⟩
    exact ⟨before, v ++ after, h.matches_append_iff.mpr ⟨after, matches_wildcard after, rfl⟩,
      (List.append_assoc before v after).symm⟩

end Like

variable {v : List Char}

theorem mem_containing_iff {c : Char} (hc : c ≠ '%') : c ∈ '%' :: (v ++ ['%']) ↔ c ∈ v := by
  simp [hc]

theorem matchesPattern_containing_iff (ignoreCase : Bool) (text : String) :
    matchesPattern (Operator.containing v) ignoreCase text = true ↔
      Like.Matches ('%' :: (v ++ ['%'])) (if ignoreCase then lowercase text.toList else text.toList) := by
  rw [matchesPattern, like_eq_matchesPattern, Sql.matchesPattern_iff, Operator.containing,
    String.toList_ofList]

end RecordSearch

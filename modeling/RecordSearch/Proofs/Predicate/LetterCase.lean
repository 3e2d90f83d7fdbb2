import RecordSearch.Proofs.Predicate.Substring

/-!
# Patterns and letter case

A text that matches a pattern still does when both are lower-cased, each as a whole, unless a capital sigma
ends a word in one of them only, or a wildcard for one character stands for the letter with two small
characters.
-/

namespace RecordSearch

namespace Text

/-- The capital I with a dot above, the one letter whose small form is two characters. -/
def dottedI : Char := Char.ofNat 0x130

/-- A letter between the characters `before`, the nearest first, and the text `rest` is the last of its word. -/
def endsWord (before rest : List Char) : Bool := meetsLetter before && !meetsLetter rest

variable {c : Char} {before rest s t : List Char}

theorem lowercaseAfter_capitalSigma : lowercaseAfter before (capitalSigma :: rest) =
    (if endsWord before rest then finalSigma else smallSigma) ::
      lowercaseAfter (capitalSigma :: before) rest := by
  rw [lowercaseAfter, if_pos rfl]
  rfl

theorem lowercaseAfter_cons (hc : c ≠ capitalSigma) :
    lowercaseAfter before (c :: rest) = lowerChar c ++ lowercaseAfter (c :: before) rest := by
  rw [lowercaseAfter, if_neg hc]

theorem lowerChar_eq_singleton (hc : c ≠ dottedI) : ∃ d, lowerChar c = [d] := by
  have hn : (c.toNat == 0x130) = false := by
    refine beq_eq_false_iff_ne.mpr fun h => hc ?_
    rw [← Char.ofNat_toNat c, h]
    rfl
  unfold lowerChar
  simp only [hn, Bool.false_eq_true, if_false]
  split <;> exact ⟨_, rfl⟩

theorem exists_lowercaseAfter_cons (hc : c ≠ dottedI) (before rest : List Char) :
    ∃ d, lowercaseAfter before (c :: rest) = d :: lowercaseAfter (c :: before) rest := by
  by_cases hs : c = capitalSigma
  · subst hs
    exact ⟨_, lowercaseAfter_capitalSigma⟩
  · obtain ⟨d, hd⟩ := lowerChar_eq_singleton hc
    exact ⟨d, by rw [lowercaseAfter_cons hs, hd]; rfl⟩

/-- A part of a text has its own part in the lower-cased text. -/
theorem exists_lowercaseAfter_append (before s t : List Char) :
    ∃ r, lowercaseAfter before (s ++ t) = r ++ lowercaseAfter (s.reverse ++ before) t := by
  induction s generalizing before with
  | nil => exact ⟨[], rfl⟩
  | cons c s ih =>
      obtain ⟨r, hr⟩ := ih (c :: before)
      rw [List.cons_append, lowercaseAfter, hr, ← List.append_assoc, List.reverse_cons, List.append_assoc s.reverse]
      exact ⟨_, rfl⟩

/-! ## Wildcards end words -/

theorem meetsLetter_append_wildcard (s : List Char) : meetsLetter (s ++ ['%']) = meetsLetter s := by
  have hplain : isCaseIgnorable '%' = false := by decide +kernel
  have hcased : isCased '%' = false := by decide +kernel
  induction s with
  | nil => simp [meetsLetter, hplain, hcased]
  | cons c s ih =>
      unfold meetsLetter at ih ⊢
      by_cases hc : isCaseIgnorable c = true
      · rw [List.cons_append, List.dropWhile_cons_of_pos hc, List.dropWhile_cons_of_pos hc, ih]
      · rw [List.cons_append, List.dropWhile_cons_of_neg hc, List.dropWhile_cons_of_neg hc]

theorem lowercaseAfter_between_wildcards (before s : List Char) :
    lowercaseAfter (before ++ ['%']) (s ++ ['%']) = lowercaseAfter before s ++ ['%'] := by
  induction s generalizing before with
  | nil => rfl
  | cons c s ih =>
      have hrest := ih (c :: before)
      rw [List.cons_append] at hrest
      rw [List.cons_append]
      by_cases hc : c = capitalSigma
      · subst hc
        rw [lowercaseAfter_capitalSigma, lowercaseAfter_capitalSigma, hrest, endsWord, endsWord,
          meetsLetter_append_wildcard, meetsLetter_append_wildcard, List.cons_append]
      · rw [lowercaseAfter_cons hc, lowercaseAfter_cons hc, hrest, List.append_assoc]

/-- The pattern for the texts that contain a value in lower case is the lower-cased pattern of the value. -/
theorem lowercase_containing (s : List Char) :
    lowercase ('%' :: (s ++ ['%'])) = '%' :: (lowercase s ++ ['%']) := by
  rw [lowercase, lowercase, ← lowercaseAfter_between_wildcards, lowercaseAfter_cons (by decide)]
  rfl

end Text

open Text

namespace Like

theorem Matches.append_left {p t : List Char} (h : Matches p t) (s : List Char) : Matches (s ++ p) (s ++ t) := by
  induction s with
  | nil => exact h
  | cons c s ih => exact matches_cons.mpr ⟨[c], s ++ t, standsFor_self c, ih, rfl⟩

instance (c : Char) (s : List Char) : Decidable (StandsFor c s) :=
  inferInstanceAs (Decidable (if c = '%' then True else if c = '_' then s.length = 1 else s = [c]))

/-- The pieces of a text, each with the character of the pattern that stands for it. -/
abbrev Reading := List (Char × List Char)

namespace Reading

def pattern (pieces : Reading) : List Char := pieces.map (·.1)

def text (pieces : Reading) : List Char := pieces.flatMap (·.2)

/-- The text is made of the pieces, and each is what its character of the pattern stands for. -/
def Reads (pieces : Reading) (pattern text : List Char) : Prop :=
  pieces.pattern = pattern ∧ pieces.text = text ∧ ∀ piece ∈ pieces, StandsFor piece.1 piece.2

instance (pieces : Reading) (pattern text : List Char) : Decidable (pieces.Reads pattern text) :=
  inferInstanceAs (Decidable (_ ∧ _ ∧ _))

/-- The piece between `before` and `after` has the same small form in the pattern and in the text, if it has
one in the pattern: a sigma ends a word in both or in neither, and a wildcard for one character stands for one
with one small character. -/
def KeepsCaseAt (before : Reading) (piece : Char × List Char) (after : Reading) : Prop :=
  (piece.1 = capitalSigma →
    endsWord before.pattern.reverse after.pattern = endsWord before.text.reverse after.text) ∧
  piece ≠ ('_', [dottedI])

instance (before : Reading) (piece : Char × List Char) (after : Reading) :
    Decidable (KeepsCaseAt before piece after) :=
  inferInstanceAs (Decidable (_ ∧ _))

def KeepsCase (pieces : Reading) : Prop :=
  ∀ before piece after, pieces = before ++ piece :: after → KeepsCaseAt before piece after

theorem keepsCase_iff {pieces : Reading} : pieces.KeepsCase ↔
    ∀ i, (h : i < pieces.length) → KeepsCaseAt (pieces.take i) pieces[i] (pieces.drop (i + 1)) := by
  constructor
  · intro hk i h
    exact hk _ _ _ (by rw [List.getElem_cons_drop, List.take_append_drop])
  · rintro hk before piece after rfl
    simpa using hk before.length (by simp)

instance (pieces : Reading) : Decidable pieces.KeepsCase := decidable_of_iff' _ keepsCase_iff

/-- One piece in lower case, before what is lower-cased already. -/
theorem matches_lowercase_piece {before after : Reading} {piece : Char × List Char}
    (hs : StandsFor piece.1 piece.2) (hk : KeepsCaseAt before piece after)
    (h : Matches (lowercaseAfter (piece.1 :: before.pattern.reverse) after.pattern)
      (lowercaseAfter (piece.2.reverse ++ before.text.reverse) after.text)) :
    Matches (lowercaseAfter before.pattern.reverse (piece.1 :: after.pattern))
      (lowercaseAfter before.text.reverse (piece.2 ++ after.text)) := by
  obtain ⟨c, s⟩ := piece
  obtain ⟨hsigma, hdotted⟩ := hk
  dsimp only at hs h hsigma ⊢
  by_cases hany : c = '%'
  · subst hany
    obtain ⟨r, hr⟩ := exists_lowercaseAfter_append before.text.reverse s after.text
    rw [hr, lowercaseAfter_cons (by decide)]
    exact matches_wildcard_cons.mpr ⟨r, _, h, rfl⟩
  · obtain ⟨d, rfl, hd⟩ := (standsFor_iff hany).mp hs
    rw [List.singleton_append]
    rcases hd with rfl | rfl
    · have hd : d ≠ dottedI := by
        rintro rfl
        exact hdotted rfl
      obtain ⟨x, hx⟩ := exists_lowercaseAfter_cons hd before.text.reverse after.text
      rw [hx, lowercaseAfter_cons (by decide)]
      exact matches_cons.mpr ⟨[x], _, rfl, h, rfl⟩
    · by_cases hc : c = capitalSigma
      · subst hc
        rw [lowercaseAfter_capitalSigma, lowercaseAfter_capitalSigma, hsigma rfl]
        exact h.append_left [_]
      · rw [lowercaseAfter_cons hc, lowercaseAfter_cons hc]
        exact h.append_left _

/-- What reads a text keeps reading it in lower case, if it keeps the case of all pieces. -/
theorem Reads.matches_lowercase {pieces : Reading} {p t : List Char} (h : pieces.Reads p t)
    (hk : pieces.KeepsCase) : Matches (lowercase p) (lowercase t) := by
  obtain ⟨rfl, rfl, hs⟩ := h
  suffices ∀ before after : Reading, pieces = before ++ after →
      Matches (lowercaseAfter before.pattern.reverse after.pattern)
        (lowercaseAfter before.text.reverse after.text) from this [] pieces rfl
  intro before after he
  induction after generalizing before with
  | nil => exact matches_nil.mpr rfl
  | cons piece after ih =>
      have hrest := ih (before ++ [piece]) (by rw [he, List.append_assoc]; rfl)
      have hpiece : piece ∈ pieces := he ▸ List.mem_append_right before List.mem_cons_self
      refine matches_lowercase_piece (hs piece hpiece) (hk before piece after he) ?_
      simpa [pattern, text] using hrest

/-- Without capital sigmas in the pattern and without a wildcard for one character, or letters with two small
characters that it could stand for, every reading keeps the case. -/
theorem Reads.keepsCase {pieces : Reading} {p t : List Char} (h : pieces.Reads p t) (hsigma : capitalSigma ∉ p)
    (hdotted : '_' ∉ p ∨ dottedI ∉ t) : pieces.KeepsCase := by
  obtain ⟨rfl, rfl, _⟩ := h
  rintro before piece after rfl
  refine ⟨fun he => absurd ?_ hsigma, ?_⟩
  · rw [← he]
    simp [pattern]
  · rintro rfl
    rcases hdotted with hp | ht
    · exact hp (by simp [pattern])
    · exact ht (by simp [text])

end Reading

theorem matches_iff_exists_reads {p t : List Char} : Matches p t ↔ ∃ pieces : Reading, pieces.Reads p t :=
  Iff.rfl

end Like

end RecordSearch

import RecordSearch.Text.Lowercase
import RecordSearch.Text.Order
import RecordSearch.Text.Segments

/-!
# Laws of texts

Equal texts in the order of texts, joined segments cut again, the lines of a text to which a line is
appended, and the characters that a text in lower case has from the text itself.
-/

namespace RecordSearch.Text

theorem order_eq_eq_iff {s t : List Char} : order s t = .eq ↔ s = t := by
  constructor
  · intro h
    fun_induction order s t with
    | case1 => rfl
    | case2 => cases h
    | case3 => cases h
    | case4 => cases h
    | case5 => cases h
    | case6 a s b t hab hba ih => rw [Char.toNat_inj.mp (by omega : a.toNat = b.toNat), ih h]
  · rintro rfl
    exact order_self s

theorem order_swap (s t : List Char) : (order s t).swap = order t s := by
  fun_induction order s t with
  | case1 => rfl
  | case2 => rfl
  | case3 => rfl
  | case4 a s b t hab =>
      rw [order, if_neg (Nat.lt_asymm hab), if_pos hab]
      rfl
  | case5 a s b t hab hba =>
      rw [order, if_pos hba]
      rfl
  | case6 a s b t hab hba ih => rw [order, if_neg hba, if_neg hab, ih]

/-- Texts that begin with parts of one length are ordered by these parts first. -/
theorem order_append {s s' : List Char} (h : s.length = s'.length) (t t' : List Char) :
    order (s ++ t) (s' ++ t') = (order s s').then (order t t') := by
  fun_induction order s s' with
  | case1 => rfl
  | case2 => cases h
  | case3 => cases h
  | case4 a s b s' hab => simp [order, hab]
  | case5 a s b s' hab hba => simp [order, hab, hba]
  | case6 a s b s' hab hba ih =>
      rw [List.cons_append, List.cons_append, order, if_neg hab, if_neg hba]
      exact ih (Nat.succ.inj h)

theorem segments_append {separator : Char} {segment : List Char} (h : separator ∉ segment)
    (s : List Char) : segments separator (segment ++ separator :: s) = segment :: segments separator s := by
  induction segment with
  | nil => simp [segments]
  | cons c segment ih =>
      simp only [List.mem_cons, not_or] at h
      rw [List.cons_append, segments, if_neg (Ne.symm h.1), ih h.2]

theorem segments_of_not_mem {separator : Char} {segment : List Char} (h : separator ∉ segment) :
    segments separator segment = [segment] := by
  induction segment with
  | nil => rfl
  | cons c segment ih =>
      simp only [List.mem_cons, not_or] at h
      rw [segments, if_neg (Ne.symm h.1), ih h.2]

theorem segments_join {separator : Char} {parts : List (List Char)} (hne : parts ≠ [])
    (h : ∀ part ∈ parts, separator ∉ part) : segments separator (join separator parts) = parts := by
  induction parts with
  | nil => exact absurd rfl hne
  | cons part parts ih =>
      have hpart := h part (List.mem_cons_self ..)
      cases parts with
      | nil => exact segments_of_not_mem hpart
      | cons next rest =>
          rw [join, segments_append hpart, ih nofun fun p hp => h p (List.mem_cons_of_mem _ hp)]

/-- A text is cut at its separators and then, with what follows it, where the text after it is cut. -/
theorem segments_append_right (separator : Char) (s t : List Char) :
    segments separator (s ++ t) = (segments separator s).dropLast ++
      segments separator ((segments separator s).getLast (segments_ne_nil separator s) ++ t) := by
  induction s with
  | nil => rfl
  | cons c s ih =>
      have hne := segments_ne_nil separator s
      rw [List.cons_append]
      by_cases hc : c = separator
      · simp only [segments, if_pos hc, List.dropLast_cons_of_ne_nil hne, List.getLast_cons hne, ih,
          List.cons_append]
      · obtain ⟨first, rest, hs⟩ := List.exists_cons_of_ne_nil hne
        simp only [hs] at ih
        simp only [segments, if_neg hc, hs, ih]
        cases rest with
        | nil =>
            simp only [List.dropLast_singleton, List.getLast_singleton, List.nil_append]
            rw [List.cons_append, segments, if_neg hc]
        | cons next rest => simp

/-! ## Lines -/

/-- The lines of a text that end with a line feed. -/
def finishedLines (s : List Char) : List (List Char) := (segments '\n' s).dropLast.map dropReturn

/-- What follows the last line feed. -/
def unfinishedLine (s : List Char) : List Char := (segments '\n' s).getLast (segments_ne_nil '\n' s)

theorem lines_eq (s : List Char) :
    lines s = finishedLines s ++ (if unfinishedLine s = [] then [] else [unfinishedLine s]) := by
  rw [lines, List.getLast?_eq_some_getLast (segments_ne_nil '\n' s)]
  rfl

theorem unfinishedLine_of_not_mem {s : List Char} (h : '\n' ∉ s) : unfinishedLine s = s := by
  simp only [unfinishedLine, segments_of_not_mem h, List.getLast_singleton]

theorem finishedLines_of_not_mem {s : List Char} (h : '\n' ∉ s) : finishedLines s = [] := by
  rw [finishedLines, segments_of_not_mem h]
  rfl

/-- A line that is appended goes on with what follows the last line feed. -/
theorem segments_append_line (s : List Char) {line : List Char} (h : '\n' ∉ line) (t : List Char) :
    segments '\n' (s ++ (line ++ '\n' :: t)) =
      (segments '\n' s).dropLast ++ (unfinishedLine s ++ line) :: segments '\n' t := by
  have hjoined : '\n' ∉ unfinishedLine s ++ line := by
    rw [List.mem_append, not_or]
    exact ⟨not_mem_of_mem_segments (List.getLast_mem _), h⟩
  rw [segments_append_right, ← List.append_assoc, ← segments_append hjoined]
  rfl

theorem unfinishedLine_append_line (s : List Char) {line : List Char} (h : '\n' ∉ line) (t : List Char) :
    unfinishedLine (s ++ (line ++ '\n' :: t)) = unfinishedLine t := by
  simp only [unfinishedLine, segments_append_line s h]
  rw [List.getLast_append_of_ne_nil _ (List.cons_ne_nil _ _), List.getLast_cons (segments_ne_nil '\n' t)]

theorem finishedLines_append_line (s : List Char) {line : List Char} (h : '\n' ∉ line) (t : List Char) :
    finishedLines (s ++ (line ++ '\n' :: t)) =
      finishedLines s ++ dropReturn (unfinishedLine s ++ line) :: finishedLines t := by
  simp [finishedLines, segments_append_line s h, List.dropLast_cons_of_ne_nil (segments_ne_nil '\n' t)]

theorem lines_append_line (s : List Char) {line : List Char} (h : '\n' ∉ line) (t : List Char) :
    lines (s ++ (line ++ '\n' :: t)) =
      finishedLines s ++ dropReturn (unfinishedLine s ++ line) :: lines t := by
  rw [lines_eq, finishedLines_append_line s h, unfinishedLine_append_line s h, List.append_assoc,
    List.cons_append, ← lines_eq]

/-- What is appended without a line feed goes on with the line that was not finished. -/
theorem lines_append_unfinished (s : List Char) {t : List Char} (h : '\n' ∉ t) (hne : t ≠ []) :
    lines (s ++ t) = finishedLines s ++ [unfinishedLine s ++ t] := by
  have hjoined : '\n' ∉ unfinishedLine s ++ t := by
    rw [List.mem_append, not_or]
    exact ⟨not_mem_of_mem_segments (List.getLast_mem _), h⟩
  have hparts : segments '\n' (s ++ t) = (segments '\n' s).dropLast ++ [unfinishedLine s ++ t] := by
    rw [segments_append_right, ← segments_of_not_mem hjoined]
    rfl
  have hlast : unfinishedLine (s ++ t) = unfinishedLine s ++ t := by
    simp only [unfinishedLine, hparts, List.getLast_concat]
  rw [lines_eq, hlast, if_neg (by simp [hne]), finishedLines, hparts, List.dropLast_concat]
  rfl

/-! ## Lower case -/

/-- The small letters of a run are characters other than the null character. -/
def CaseRun.Proper (r : CaseRun) : Prop :=
  0 < r.first + r.offset ∧
    (r.last + r.offset < 0xD800 ∨ 0xE000 ≤ r.first + r.offset ∧ r.last + r.offset < 0x110000)

instance (r : CaseRun) : Decidable r.Proper := inferInstanceAs (Decidable (_ ∧ _))

theorem lowercaseRuns_proper : ∀ r ∈ lowercaseRuns, r.Proper := by decide +kernel

/-- No small letter comes before the letter a. -/
theorem le_first_add_offset : ∀ r ∈ lowercaseRuns, 0x61 ≤ r.first + r.offset := by decide +kernel

theorem lowerChar_eq_self_or {c d : Char} (h : d ∈ lowerChar c) : d = c ∨ 0x61 ≤ d.toNat := by
  unfold lowerChar at h
  dsimp only at h
  split at h
  · simp only [List.mem_cons, List.not_mem_nil, or_false] at h
    rcases h with rfl | rfl <;> exact .inr (by decide)
  · split at h
    · next run hrun =>
      have hmem := List.mem_of_find?_eq_some hrun
      obtain ⟨_, hvalid⟩ := lowercaseRuns_proper run hmem
      have hlow := le_first_add_offset run hmem
      have hcovers := List.find?_some hrun
      simp only [CaseRun.covers, Bool.and_eq_true, decide_eq_true_eq] at hcovers
      have hok : (c.toNat + run.offset).toNat.isValidChar := by
        rw [Nat.isValidChar]
        omega
      have hsmall : (Char.ofNat (c.toNat + run.offset).toNat).toNat = (c.toNat + run.offset).toNat := by
        rw [Char.ofNat, dif_pos hok]
        rfl
      refine .inr ?_
      rw [List.mem_singleton.mp h, hsmall]
      omega
    · exact .inl (List.mem_singleton.mp h)

/-- Characters before the letter a are in the lower-cased text only where they were before. -/
theorem mem_of_mem_lowercaseAfter {before s : List Char} {c : Char} (hc : c.toNat < 0x61)
    (h : c ∈ lowercaseAfter before s) : c ∈ s := by
  induction s generalizing before with
  | nil => exact h
  | cons d s ih =>
      rw [lowercaseAfter, List.mem_append] at h
      rcases h with h | h
      · split at h
        · split at h <;> (rw [List.mem_singleton.mp h] at hc; exact absurd hc (by decide))
        · rcases lowerChar_eq_self_or h with rfl | hle
          · exact List.mem_cons_self
          · omega
      · exact List.mem_cons_of_mem d (ih h)

theorem mem_of_mem_lowercase {s : List Char} {c : Char} (hc : c.toNat < 0x61) (h : c ∈ lowercase s) : c ∈ s :=
  mem_of_mem_lowercaseAfter hc h

end RecordSearch.Text

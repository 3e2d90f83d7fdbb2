import RecordSearch.Proofs.Timestamp.Order

/-!
# Canonical texts of points in time

A canonical text has all parts of a point in time at their full width, seconds included, and a fraction only if
it is not zero, without zeros at its end. Every point in time has just one canonical text, the one that is
written for it.
-/

namespace RecordSearch

open Text

namespace Text

variable {before after s : List Char}

theorem trim_between (hb : allBlank before = true) (ha : allBlank after = true)
    (hs : ∀ c ∈ s, isBlank c = false) : trim (before ++ s ++ after) = s := by
  have hstart (t : List Char) {u : List Char} (hu : allBlank u = true) : trimStart (u ++ t) = trimStart t :=
    List.dropWhile_append_of_pos (List.all_eq_true.mp hu)
  have hafter : allBlank after.reverse = true := by rwa [allBlank, List.all_reverse]
  cases s with
  | nil =>
      -- Nothing ends the blanks before, so those behind are cut off with them.
      have hnone := hstart [] ha
      rw [List.append_nil] at hnone
      rw [List.append_nil, trim, hstart _ hb, hnone]
      rfl
  | cons c s =>
      have hhead := hs c List.mem_cons_self
      rw [List.append_assoc, trim, hstart _ hb, List.cons_append, trimStart_of_head hhead, ← List.cons_append,
        trimEnd, List.reverse_append, hstart _ hafter, trimStart_eq_self, List.reverse_reverse]
      exact fun d hd => hs d (List.mem_reverse.mp hd)

namespace Decimal

def Numeral (width : Nat) (s : List Char) : Prop := s.length = width ∧ ∀ c ∈ s, isDigit c = true

theorem numeral_padded (width n : Nat) : Numeral width (padded width n) :=
  ⟨length_padded width n, fun _ => isDigit_of_mem_padded width n⟩

theorem digit_of_isDigit {c : Char} (h : isDigit c = true) (n : Nat) : digit (10 * n + value c) = c := by
  simp only [isDigit, Bool.and_eq_true, decide_eq_true_eq] at h
  rw [← Char.toNat_inj, toNat_digit, value]
  omega

theorem value_lt {c : Char} (h : isDigit c = true) : value c < 10 := by
  simp only [isDigit, Bool.and_eq_true, decide_eq_true_eq] at h
  rw [value]
  omega

/-- A numeral is that of its number, and the number has no more digits. -/
theorem Numeral.padded_ofDigits {width : Nat} (h : Numeral width s) :
    padded width (ofDigits s) = s ∧ ofDigits s < 10 ^ width := by
  induction width generalizing s with
  | zero =>
      rw [List.length_eq_zero_iff.mp h.1]
      exact ⟨rfl, Nat.one_pos⟩
  | succ width ih =>
      obtain ⟨hlength, hdigits⟩ := h
      obtain ⟨s, c, rfl⟩ : ∃ t d, s = t ++ [d] := by
        rcases List.eq_nil_or_concat s with rfl | h
        · cases hlength
        · simpa using h
      rw [List.length_append, List.length_singleton] at hlength
      have hc := hdigits c (by simp)
      obtain ⟨hs, hlt⟩ := ih ⟨Nat.succ.inj hlength, fun d hd => hdigits d (List.mem_append_left _ hd)⟩
      have hvalue := value_lt hc
      have htenth : (10 * ofDigits s + value c) / 10 = ofDigits s := by omega
      rw [ofDigits_append_singleton, padded, htenth, hs, digit_of_isDigit hc, Nat.pow_succ]
      exact ⟨rfl, by omega⟩

end Decimal

end Text

namespace Timestamp

open Text.Decimal (Numeral)

variable {t : Timestamp} {s sign : List Char}

/-! ## Years and fractions -/

/-- A year of four digits; the year nought has no sign. -/
def IsYear (s : List Char) : Prop :=
  Numeral 4 s ∨ ∃ digits, s = '-' :: digits ∧ Numeral 4 digits ∧ Decimal.ofDigits digits ≠ 0

/-- Nothing, or a point and up to nine digits of which the last is not zero. -/
def IsFraction (s : List Char) : Prop :=
  s = [] ∨ ∃ digits, s = '.' :: digits ∧ digits ≠ [] ∧ digits.length ≤ 9 ∧
    (∀ c ∈ digits, Decimal.isDigit c = true) ∧ Trimmed digits

theorem isYear_printYear {year : Int} (h : -9999 ≤ year ∧ year ≤ 9999) : IsYear (printYear year) := by
  unfold printYear
  split
  · next hneg =>
    refine .inr ⟨Decimal.padded 4 year.natAbs, rfl, Decimal.numeral_padded 4 _, ?_⟩
    rw [Decimal.ofDigits_padded]
    omega
  · exact .inl (Decimal.numeral_padded 4 _)

theorem IsYear.exists_printYear (h : IsYear s) : ∃ year, (-9999 ≤ year ∧ year ≤ 9999) ∧ s = printYear year := by
  rcases h with hs | ⟨digits, rfl, hdigits, hne⟩
  · obtain ⟨hpadded, hlt⟩ := hs.padded_ofDigits
    refine ⟨Decimal.ofDigits s, by omega, ?_⟩
    rw [printYear, if_neg (by omega), Int.natAbs_natCast, hpadded, List.nil_append]
  · obtain ⟨hpadded, hlt⟩ := hdigits.padded_ofDigits
    refine ⟨-Decimal.ofDigits digits, by omega, ?_⟩
    rw [printYear, if_pos (by omega), Int.natAbs_neg, Int.natAbs_natCast, hpadded]
    rfl

theorem isFraction_printFraction {nanosecond : Nat} (h : nanosecond < 1000000000) :
    IsFraction (printFraction nanosecond) := by
  unfold printFraction
  split
  · exact .inl rfl
  · next hne =>
    obtain ⟨k, hk⟩ := dropZeros_append (Decimal.padded 9 nanosecond)
    have hlength := congrArg List.length hk
    rw [List.length_append, List.length_replicate, Decimal.length_padded] at hlength
    have hread := nanosecond?_dropZeros h hne
    refine .inr ⟨_, rfl, fun hnil => ?_, by omega, fun _ => isDigit_of_mem_dropZeros, trimmed_dropZeros _⟩
    rw [hnil] at hread
    cases hread

theorem dropZeros_append_zeros (h : Trimmed s) (k : Nat) : dropZeros (s ++ List.replicate k '0') = s := by
  have hzeros : ∀ c ∈ (List.replicate k '0').reverse, (c == '0') = true := by simp
  rw [dropZeros, List.reverse_append, List.dropWhile_append_of_pos hzeros]
  rcases List.eq_nil_or_concat s with rfl | ⟨s, c, rfl⟩
  · rfl
  · have hc : (c == '0') = false := beq_eq_false_iff_ne.mpr fun e => h (by simp [e])
    simp [hc]

theorem IsFraction.exists_printFraction (h : IsFraction s) :
    ∃ nanosecond, nanosecond < 1000000000 ∧ s = printFraction nanosecond := by
  rcases h with rfl | ⟨digits, rfl, hne, hlength, hdigits, htrimmed⟩
  · exact ⟨0, by decide, rfl⟩
  · have hnumeral : Numeral 9 (digits ++ List.replicate (9 - digits.length) '0') := by
      refine ⟨by simp; omega, fun c hc => ?_⟩
      rcases List.mem_append.mp hc with hc | hc
      · exact hdigits c hc
      · rw [List.eq_of_mem_replicate hc]
        rfl
    obtain ⟨hpadded, hlt⟩ := hnumeral.padded_ofDigits
    refine ⟨_, hlt, ?_⟩
    have hdrop := dropZeros_append_zeros htrimmed (9 - digits.length)
    rw [← hpadded] at hdrop
    rw [printFraction, if_neg, hdrop]
    intro hzero
    rw [hzero] at hdrop
    exact hne hdrop.symm

/-! ## Canonical texts -/

/-- A date and a time of day, all parts at their full width. -/
inductive Canonical : List Char → Prop
  | intro {year month day hour minute second fraction : List Char} (hyear : IsYear year)
      (hmonth : Numeral 2 month) (hday : Numeral 2 day) (hhour : Numeral 2 hour) (hminute : Numeral 2 minute)
      (hsecond : Numeral 2 second) (hfraction : IsFraction fraction) :
      Canonical (year ++ '-' :: (month ++ '-' :: (day ++ 'T' :: (hour ++ ':' :: (minute ++
        ':' :: (second ++ fraction))))))

theorem canonical_print (t : Timestamp) : Canonical t.print := by
  rw [print_eq_written]
  exact .intro (isYear_printYear t.date.year_range) (Decimal.numeral_padded 2 _) (Decimal.numeral_padded 2 _)
    (Decimal.numeral_padded 2 _) (Decimal.numeral_padded 2 _) (Decimal.numeral_padded 2 _)
    (isFraction_printFraction t.nanosecond_range)

/-- A canonical text that is read is the one that is written for what it is read as. -/
theorem Canonical.eq_print (h : Canonical s) (hp : parse? s = some t) : s = t.print := by
  obtain ⟨hyear, hmonth, hday, hhour, hminute, hsecond, hfraction⟩ := h
  obtain ⟨year, hy, rfl⟩ := hyear.exists_printYear
  obtain ⟨nanosecond, hn, rfl⟩ := hfraction.exists_printFraction
  obtain ⟨hmonth, hm⟩ := hmonth.padded_ofDigits
  obtain ⟨hday, hd⟩ := hday.padded_ofDigits
  obtain ⟨hhour, hh⟩ := hhour.padded_ofDigits
  obtain ⟨hminute, hmin⟩ := hminute.padded_ofDigits
  obtain ⟨hsecond, hs⟩ := hsecond.padded_ofDigits
  rw [← hmonth, ← hday, ← hhour, ← hminute, ← hsecond] at hp ⊢
  have hread := parse?_written hy hm hd hh hmin hs hn
  rw [written, hp] at hread
  obtain ⟨date, hdate, hmake⟩ := Option.bind_eq_some_iff.mp hread.symm
  unfold make? at hmake
  split at hmake
  · cases hmake
    obtain ⟨rfl, hmonth, hday⟩ := Date.eq_of_make? hdate
    rw [print_eq_written, hmonth, hday]
    rfl
  · cases hmake

/-! ## Layouts -/

/-- The layouts of a point in time, by the last part that they have. -/
inductive Layout where
  | toFraction
  | toSecond
  | toMinute
  | toDay

namespace Layout

/-- The layouts in the order in which they are tried. -/
def all : List Layout := [.toFraction, .toSecond, .toMinute, .toDay]

/-- Reads what a layout has after the minute, to the end of the text. -/
def seconds? : Layout → List Char → Option (Nat × Nat)
  | .toFraction, ':' :: s => do
      let (second, '.' :: s) ← twoDigits? s | none
      let nanosecond ← nanosecond? s
      some (second, nanosecond)
  | .toSecond, ':' :: s => do
      let (second, []) ← twoDigits? s | none
      some (second, 0)
  | .toMinute, [] => some (0, 0)
  | _, _ => none

def timeOn? (date : Date) : Layout → List Char → Option Timestamp
  | .toDay, [] => some (midnight date)
  | .toDay, _ => none
  | layout, 'T' :: s => do
      let (hour, s) ← twoDigits? s
      let ':' :: s := s | none
      let (minute, s) ← twoDigits? s
      let (second, nanosecond) ← layout.seconds? s
      make? date hour minute second nanosecond
  | _, _ => none

def read? (layout : Layout) (s : List Char) : Option Timestamp := do
  let (date, rest) ← date? s
  layout.timeOn? date rest

end Layout

/-- At most one layout reads what stands after the minute, so the order of the layouts does not matter there. -/
theorem seconds?_bind (s : List Char) (f : Nat × Nat → Option Timestamp) :
    (seconds? s).bind f = Layout.all.findSome? fun layout => (layout.seconds? s).bind f := by
  simp only [Layout.all, List.findSome?_cons, List.findSome?_nil]
  unfold seconds?
  split
  · cases hf : f (0, 0) <;> simp [Layout.seconds?, hf]
  · next s =>
    rcases hread : twoDigits? s with _ | ⟨second, rest⟩
    · simp [Layout.seconds?, hread]
    · simp only [Option.bind_eq_bind, Option.bind_some]
      split
      · cases hf : f (second, 0) <;> simp [Layout.seconds?, hread, hf]
      · next s =>
        cases hn : nanosecond? s with
        | none => simp [Layout.seconds?, hread, hn]
        | some nanosecond => cases hf : f (second, nanosecond) <;> simp [Layout.seconds?, hread, hn, hf]
      · next hnil hpoint =>
        have hfraction : Layout.toFraction.seconds? (':' :: s) = none := by
          simp only [Layout.seconds?, hread, Option.bind_eq_bind, Option.bind_some]
          split
          · next h => cases h; exact (hpoint _ rfl).elim
          · rfl
        have hsecond : Layout.toSecond.seconds? (':' :: s) = none := by
          simp only [Layout.seconds?, hread, Option.bind_eq_bind, Option.bind_some]
          split
          · next h => cases h; exact (hnil rfl).elim
          · rfl
        have hminute : Layout.toMinute.seconds? (':' :: s) = none := rfl
        have hday : Layout.toDay.seconds? (':' :: s) = none := rfl
        simp [hfraction, hsecond, hminute, hday]
  · next hnil hcolon =>
    have hnone (layout : Layout) : layout.seconds? s = none := by
      unfold Layout.seconds?
      split
      · exact (hcolon _ rfl).elim
      · exact (hcolon _ rfl).elim
      · exact (hnil rfl).elim
      · rfl
    simp [hnone]

theorem timeOn?_eq_findSome? (date : Date) (s : List Char) :
    timeOn? date s = Layout.all.findSome? (·.timeOn? date s) := by
  simp only [Layout.all, List.findSome?_cons, List.findSome?_nil]
  unfold timeOn?
  split
  · rfl
  · next s =>
    rcases hhour : twoDigits? s with _ | ⟨hour, rest⟩
    · simp [Layout.timeOn?, hhour]
    · simp only [Option.bind_eq_bind, Option.bind_some]
      split
      · next s =>
        rcases hminute : twoDigits? s with _ | ⟨minute, rest⟩
        · simp [Layout.timeOn?, hhour, hminute]
        · have hday : Layout.toDay.seconds? rest = none := rfl
          simp [Layout.timeOn?, hhour, hminute, seconds?_bind, Layout.all, List.findSome?_cons, hday]
      · simp [Layout.timeOn?, hhour]
  · simp [Layout.timeOn?]

theorem parse?_eq_findSome? (s : List Char) : parse? s = Layout.all.findSome? (·.read? (trim s)) := by
  unfold parse?
  rcases hread : date? (trim s) with _ | ⟨date, rest⟩
  · simp [Layout.all, Layout.read?, hread]
  · simp [Layout.read?, hread, timeOn?_eq_findSome?]

/-- Reading tries four layouts in turn. What is written is read back by it, with blanks around it, too. Hence every
text that is read leads to a canonical text, which is read as the same point in time; no other canonical text is. -/
theorem parse?_print_canonical :
    (∀ s, parse? s = Layout.all.findSome? (·.read? (trim s))) ∧
    (∀ (t : Timestamp) (before after : List Char), allBlank before = true → allBlank after = true →
      parse? (before ++ t.print ++ after) = some t) ∧
    ∀ (raw : List Char) (t : Timestamp), parse? raw = some t →
      Canonical t.print ∧ parse? t.print = some t ∧ ∀ s, Canonical s → parse? s = some t → s = t.print := by
  refine ⟨parse?_eq_findSome?, fun t before after hb ha => ?_, fun raw t _ =>
    ⟨t.canonical_print, parse?_print t, fun s hs hp => hs.eq_print hp⟩⟩
  have hblank : ∀ c ∈ t.print, isBlank c = false := by
    rw [print_eq_written]
    exact fun c hc => isBlank_of_mem_written hc
  rw [← parse?_print t, parse?, parse?, trim_between hb ha hblank, trim_eq_self hblank]

theorem parse?_print_canonical_ides :
    let day : Date := { year := -44, month := 3, day := 15 }
    let ides : Timestamp := { date := day, hour := 12, minute := 0, second := 0, nanosecond := 50000000 }
    ides.render = "-0044-03-15T12:00:00.05" ∧
      parse? (" \t".toList ++ ides.print ++ "\n".toList) = some ides ∧
      parse? "-0044-03-15T12:00:00.0500 ".toList = some ides ∧
      Layout.toFraction.read? (trim "-0044-03-15T12:00:00.0500 ".toList) = some ides ∧
      Canonical ides.print ∧ parse? ides.print = some ides := by
  intro day ides
  obtain ⟨-, hread, hcanonical⟩ := parse?_print_canonical
  have hraw : parse? "-0044-03-15T12:00:00.0500 ".toList = some ides := by decide
  obtain ⟨hwritten, hself, -⟩ := hcanonical _ _ hraw
  exact ⟨by decide, hread ides _ _ (by decide) (by decide), hraw, by decide, hwritten, hself⟩

end Timestamp

end RecordSearch

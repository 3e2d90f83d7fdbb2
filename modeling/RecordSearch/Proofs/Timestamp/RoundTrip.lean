import Mathlib.Algebra.Group.Nat.Defs
import RecordSearch.Timestamp.Text

/-!
# Written points in time read back

The canonical form of a point in time is read as that point in time.
-/

namespace RecordSearch

open Text

namespace Text

theorem isBlank_of_isDigit {c : Char} (h : Decimal.isDigit c = true) : isBlank c = false := by
  simp only [Decimal.isDigit, Bool.and_eq_true, decide_eq_true_eq] at h
  simp only [isBlank, Bool.or_eq_false_iff, Bool.and_eq_false_iff, decide_eq_false_iff_not,
    beq_eq_false_iff_ne]
  omega

theorem trimStart_eq_self {s : List Char} (h : ∀ c ∈ s, isBlank c = false) : trimStart s = s := by
  cases s with
  | nil => rfl
  | cons c s => exact trimStart_of_head (h c (List.mem_cons_self ..))

theorem trim_eq_self {s : List Char} (h : ∀ c ∈ s, isBlank c = false) : trim s = s := by
  rw [trim, trimStart_eq_self h, trimEnd, trimStart_eq_self, List.reverse_reverse]
  intro c hc
  exact h c (List.mem_reverse.mp hc)

namespace Decimal

theorem isDigit_of_mem_padded (width n : Nat) {c : Char} (h : c ∈ padded width n) :
    isDigit c = true := by
  induction width generalizing n with
  | zero => cases h
  | succ width ih =>
      simp only [padded, List.mem_append, List.mem_singleton] at h
      rcases h with h | rfl
      · exact ih (n / 10) h
      · exact isDigit_digit n

theorem ofDigits_padded (width n : Nat) : ofDigits (padded width n) = n % 10 ^ width := by
  induction width generalizing n with
  | zero => simp [padded, ofDigits, Nat.mod_one]
  | succ width ih =>
      rw [padded, ofDigits_append_singleton, ih, value_digit, Nat.pow_succ, Nat.mul_comm (10 ^ width),
        Nat.mod_mul]
      omega

theorem padded_two (n : Nat) : padded 2 n = [digit (n / 10), digit n] := rfl

theorem padded_four (n : Nat) : padded 4 n = padded 2 (n / 100) ++ padded 2 n := by
  have h : n / 10 / 10 = n / 100 := by omega
  simp [padded, h]

end Decimal

end Text

namespace Timestamp

/-! ## Dates -/

theorem twoDigits?_padded (n : Nat) (s : List Char) :
    twoDigits? (Decimal.padded 2 n ++ s) = some (n % 100, s) := by
  have hvalue := Decimal.ofDigits_padded 2 n
  rw [Decimal.padded_two] at hvalue ⊢
  simp [twoDigits?, Decimal.isDigit_digit, hvalue]

theorem twoDigits?_padded_of_lt {n : Nat} (h : n < 100) (s : List Char) :
    twoDigits? (Decimal.padded 2 n ++ s) = some (n, s) := by
  rw [twoDigits?_padded, Nat.mod_eq_of_lt h]

theorem year?_minus (s : List Char) :
    year? ('-' :: s) = (do
      let (century, s) ← twoDigits? s
      let (years, s) ← twoDigits? s
      some (-(100 * century + years), s)) := rfl

theorem year?_of_head {c : Char} (hm : c ≠ '-') (hp : c ≠ '+') (s : List Char) :
    year? (c :: s) = (do
      let (century, s) ← twoDigits? (c :: s)
      let (years, s) ← twoDigits? s
      some (100 * century + years, s)) := by
  unfold year?
  split
  next negative r h =>
    split at h
    · next e => cases e; exact absurd rfl hm
    · next e => cases e; exact absurd rfl hp
    · cases h; rfl

theorem year?_printYear {year : Int} (h : -9999 ≤ year ∧ year ≤ 9999) (s : List Char) :
    year? (printYear year ++ s) = some (year, s) := by
  have hcentury := twoDigits?_padded_of_lt (n := year.natAbs / 100) (by omega)
    (Decimal.padded 2 year.natAbs ++ s)
  have hyears := twoDigits?_padded year.natAbs s
  by_cases hneg : year < 0
  · rw [printYear, if_pos hneg, Decimal.padded_four, List.append_assoc, List.append_assoc,
      List.singleton_append, year?_minus]
    simp only [Option.bind_eq_bind, hcentury, hyears, Option.bind_some, Option.some.injEq,
      Prod.mk.injEq, and_true]
    omega
  · have hdigit := Decimal.isDigit_digit (year.natAbs / 100 / 10)
    have hne : ∀ c, Decimal.isDigit c = false → Decimal.digit (year.natAbs / 100 / 10) ≠ c := by
      rintro c hc rfl
      rw [hc] at hdigit
      cases hdigit
    rw [printYear, if_neg hneg, List.nil_append, Decimal.padded_four, List.append_assoc,
      Decimal.padded_two (year.natAbs / 100), List.cons_append, year?_of_head (hne _ rfl) (hne _ rfl),
      ← List.cons_append, ← Decimal.padded_two]
    simp only [Option.bind_eq_bind, hcentury, hyears, Option.bind_some, Option.some.injEq,
      Prod.mk.injEq, and_true]
    omega

theorem daysInMonth_le (year : Int) (month : Nat) : daysInMonth year month ≤ 31 := by
  unfold daysInMonth
  split
  · split <;> omega
  · omega
  · omega
  · omega
  · omega
  · omega

theorem date?_written {year : Int} {month day : Nat} (hy : -9999 ≤ year ∧ year ≤ 9999) (hm : month < 100)
    (hd : day < 100) (s : List Char) :
    date? (printYear year ++ '-' :: (Decimal.padded 2 month ++ '-' :: (Decimal.padded 2 day ++ s))) =
      (Date.make? year month day).map (·, s) := by
  simp only [date?, year?_printYear hy, twoDigits?_padded_of_lt hm, twoDigits?_padded_of_lt hd,
    Option.bind_eq_bind, Option.bind_some]
  cases Date.make? year month day <;> rfl

/-! ## Fractions of a second -/

theorem dropZeros_append (s : List Char) : ∃ k, dropZeros s ++ List.replicate k '0' = s := by
  refine ⟨(s.reverse.takeWhile (· == '0')).length, ?_⟩
  have hzeros : List.replicate (s.reverse.takeWhile (· == '0')).length '0' =
      s.reverse.takeWhile (· == '0') := by
    symm
    rw [List.eq_replicate_iff]
    refine ⟨rfl, fun c hc => ?_⟩
    exact beq_iff_eq.mp (List.all_eq_true.mp List.all_takeWhile c hc)
  rw [dropZeros, hzeros, ← List.reverse_inj, List.reverse_append, List.reverse_reverse]
  have hrev : (s.reverse.takeWhile (· == '0')).reverse = s.reverse.takeWhile (· == '0') := by
    rw [← hzeros, List.reverse_replicate]
  rw [hrev, List.takeWhile_append_dropWhile]

theorem ofDigits_replicate_zero (k : Nat) : Decimal.ofDigits (List.replicate k '0') = 0 := by
  induction k with
  | zero => rfl
  | succ k ih =>
      rw [List.replicate_succ', Decimal.ofDigits_append_singleton, ih]
      rfl

theorem isDigit_of_mem_dropZeros {n : Nat} {c : Char} (h : c ∈ dropZeros (Decimal.padded 9 n)) :
    Decimal.isDigit c = true := by
  obtain ⟨k, hk⟩ := dropZeros_append (Decimal.padded 9 n)
  refine Decimal.isDigit_of_mem_padded 9 n ?_
  rw [← hk]
  exact List.mem_append_left _ h

theorem nanosecond?_dropZeros {n : Nat} (hn : n < 1000000000) (hne : n ≠ 0) :
    nanosecond? (dropZeros (Decimal.padded 9 n)) = some n := by
  obtain ⟨k, hk⟩ := dropZeros_append (Decimal.padded 9 n)
  have hvalue : Decimal.ofDigits (Decimal.padded 9 n) = n % 1000000000 := Decimal.ofDigits_padded 9 n
  rw [Nat.mod_eq_of_lt hn] at hvalue
  have hlength : (dropZeros (Decimal.padded 9 n)).length + k = 9 := by
    have := congrArg List.length hk
    rwa [List.length_append, List.length_replicate, Decimal.length_padded] at this
  have hnonempty : dropZeros (Decimal.padded 9 n) ≠ [] := by
    intro h
    rw [h, List.nil_append] at hk
    rw [← hk, ofDigits_replicate_zero] at hvalue
    exact hne hvalue.symm
  have hdigits : (dropZeros (Decimal.padded 9 n)).all Decimal.isDigit = true :=
    List.all_eq_true.mpr fun _ hc => isDigit_of_mem_dropZeros hc
  have htake : (dropZeros (Decimal.padded 9 n) ++ List.replicate 9 '0').take 9 =
      Decimal.padded 9 n := by
    have hnine : List.replicate 9 '0' = List.replicate k '0' ++ List.replicate (9 - k) '0' := by
      rw [List.replicate_append_replicate]
      congr 1
      omega
    rw [hnine, ← List.append_assoc, hk, List.take_left' (Decimal.length_padded 9 n)]
  rw [nanosecond?, if_pos ⟨hnonempty, hdigits⟩, htake, hvalue]

theorem seconds?_written {second nanosecond : Nat} (hs : second < 100) (hn : nanosecond < 1000000000) :
    seconds? (':' :: (Decimal.padded 2 second ++ printFraction nanosecond)) =
      some (second, nanosecond) := by
  have hread := twoDigits?_padded_of_lt hs (printFraction nanosecond)
  simp only [seconds?, hread, Option.bind_eq_bind, Option.bind_some]
  by_cases h : nanosecond = 0
  · rw [printFraction, if_pos h, h]
  · rw [printFraction, if_neg h]
    simp only [nanosecond?_dropZeros hn h, Option.map_some]

/-! ## Points in time -/

/-- The text with the given numbers for the parts of a point in time, whether there is such a point or not. -/
def written (year : Int) (month day hour minute second nanosecond : Nat) : List Char :=
  printYear year ++ '-' :: (Decimal.padded 2 month ++ '-' :: (Decimal.padded 2 day ++
    'T' :: (Decimal.padded 2 hour ++ ':' :: (Decimal.padded 2 minute ++
      ':' :: (Decimal.padded 2 second ++ printFraction nanosecond)))))

theorem print_eq_written (t : Timestamp) :
    t.print = written t.date.year t.date.month t.date.day t.hour t.minute t.second t.nanosecond := by
  simp [print, printDate, written]

theorem isBlank_of_mem_written {year : Int} {month day hour minute second nanosecond : Nat} {c : Char}
    (h : c ∈ written year month day hour minute second nanosecond) : isBlank c = false := by
  have hfraction : c ∈ printFraction nanosecond → isBlank c = false := by
    intro hc
    unfold printFraction at hc
    split at hc
    · cases hc
    · rcases List.mem_cons.mp hc with rfl | hc
      · rfl
      · exact isBlank_of_isDigit (isDigit_of_mem_dropZeros hc)
  have hdigits : ∀ width n, c ∈ Decimal.padded width n → isBlank c = false :=
    fun width n hc => isBlank_of_isDigit (Decimal.isDigit_of_mem_padded width n hc)
  have hsign : c ∈ (if year < 0 then ['-'] else []) → isBlank c = false := by
    intro hc
    split at hc
    · rw [List.mem_singleton.mp hc]; rfl
    · cases hc
  simp only [written, printYear, List.mem_append, List.mem_cons] at h
  rcases h with (h | h) | h | h | h | h | h | h | h | h | h | h | h
  all_goals first | (subst h; rfl) | exact hdigits _ _ h | exact hsign h | exact hfraction h

/-- A text with all parts is read if its numbers make a point in time. -/
theorem parse?_written {year : Int} {month day hour minute second nanosecond : Nat}
    (hy : -9999 ≤ year ∧ year ≤ 9999) (hm : month < 100) (hd : day < 100) (hh : hour < 100) (hmin : minute < 100)
    (hs : second < 100) (hn : nanosecond < 1000000000) :
    parse? (written year month day hour minute second nanosecond) =
      (Date.make? year month day).bind (make? · hour minute second nanosecond) := by
  rw [parse?, trim_eq_self fun c hc => isBlank_of_mem_written hc, written, date?_written hy hm hd]
  cases Date.make? year month day with
  | none => rfl
  | some date =>
      simp only [Option.map_some, Option.bind_eq_bind, Option.bind_some, timeOn?, twoDigits?_padded_of_lt hh,
        twoDigits?_padded_of_lt hmin, seconds?_written hs hn]

/-- All parts of a point in time fit into two digits, but for the year and the fraction. -/
theorem parts_lt (t : Timestamp) :
    t.date.month < 100 ∧ t.date.day < 100 ∧ t.hour < 100 ∧ t.minute < 100 ∧ t.second < 100 := by
  have hmonth := t.date.month_range
  have hday := t.date.day_range
  have hdays := daysInMonth_le t.date.year t.date.month
  have hhour := t.hour_range
  have hminute := t.minute_range
  have hsecond := t.second_range
  omega

theorem parse?_print (t : Timestamp) : parse? t.print = some t := by
  obtain ⟨hmonth, hday, hhour, hminute, hsecond⟩ := t.parts_lt
  rw [print_eq_written, parse?_written t.date.year_range hmonth hday hhour hminute hsecond t.nanosecond_range,
    Date.make?_self, Option.bind_some, make?_self]

theorem print_inj {t u : Timestamp} : t.print = u.print ↔ t = u := by
  refine ⟨fun h => ?_, congrArg print⟩
  have hread := parse?_print t
  rw [h, parse?_print, Option.some.injEq] at hread
  exact hread.symm

end Timestamp

end RecordSearch

import RecordSearch.Proofs.Text.Encoding
import RecordSearch.Proofs.Timestamp.RoundTrip

/-!
# The order of written points in time

The canonical forms of points in time are ordered as the points in time are, save that of two different
years before the year nought the later one comes first.
-/

namespace RecordSearch

open Text

/-! ## Comparison digit by digit -/

theorem compare_eq {a b : Int} {o : Ordering} (hlt : o = .lt → a < b) (heq : o = .eq → a = b)
    (hgt : o = .gt → b < a) : compare a b = o := by
  cases o with
  | lt => exact Int.compare_eq_lt.mpr (hlt rfl)
  | eq => exact Int.compare_eq_eq.mpr (heq rfl)
  | gt => exact Int.compare_eq_gt.mpr (hgt rfl)

theorem compare_natCast (m n : Nat) : compare (m : Int) (n : Int) = compare m n := by
  refine compare_eq (fun h => ?_) (fun h => ?_) (fun h => ?_)
  · have := Nat.compare_eq_lt.mp h
    omega
  · have := Nat.compare_eq_eq.mp h
    omega
  · have := Nat.compare_eq_gt.mp h
    omega

/-- Numbers with one more digit are compared by what they were before and then by that digit. -/
theorem compare_mul_add {k a a' : Int} {b b' : Nat} (hb : b < k) (hb' : b' < k) :
    compare (a * k + b) (a' * k + b') = (compare a a').then (compare b b') := by
  rcases hc : compare a a' with _ | _ | _
  · have hle : (a + 1) * k ≤ a' * k := Int.mul_le_mul_of_nonneg_right (Int.compare_eq_lt.mp hc) (by omega)
    rw [Int.add_mul, Int.one_mul] at hle
    exact Int.compare_eq_lt.mpr (by omega)
  · rw [Int.compare_eq_eq.mp hc, Ordering.eq_then, ← compare_natCast]
    refine compare_eq (fun h => ?_) (fun h => ?_) (fun h => ?_)
    · have := Int.compare_eq_lt.mp h
      omega
    · have := Int.compare_eq_eq.mp h
      omega
    · have := Int.compare_eq_gt.mp h
      omega
  · have hle : (a' + 1) * k ≤ a * k := Int.mul_le_mul_of_nonneg_right (Int.compare_eq_gt.mp hc) (by omega)
    rw [Int.add_mul, Int.one_mul] at hle
    exact Int.compare_eq_gt.mpr (by omega)

namespace Text.Decimal

theorem toNat_digit (n : Nat) : (digit n).toNat = 48 + n % 10 := by
  have hdigit := isDigit_digit n
  have hvalue := value_digit n
  simp only [isDigit, Bool.and_eq_true, decide_eq_true_eq, value] at hdigit hvalue
  omega

theorem order_digit (m n : Nat) : order [digit m] [digit n] = compare (m % 10) (n % 10) := by
  rw [order, toNat_digit, toNat_digit]
  rcases hc : compare (m % 10) (n % 10) with _ | _ | _
  · have := Nat.compare_eq_lt.mp hc
    rw [if_pos (by omega)]
  · have := Nat.compare_eq_eq.mp hc
    rw [if_neg (by omega), if_neg (by omega)]
    rfl
  · have := Nat.compare_eq_gt.mp hc
    rw [if_neg (by omega), if_pos (by omega)]

/-- Numerals of one width are ordered as the numbers are. -/
theorem order_padded {width m n : Nat} (hm : m < 10 ^ width) (hn : n < 10 ^ width) :
    order (padded width m) (padded width n) = compare m n := by
  induction width generalizing m n with
  | zero =>
      obtain rfl : m = 0 := by omega
      obtain rfl : n = 0 := by omega
      rfl
  | succ width ih =>
      have hlength : (padded width (m / 10)).length = (padded width (n / 10)).length := by
        rw [length_padded, length_padded]
      have hfirst := ih (m := m / 10) (n := n / 10) (by omega) (by omega)
      have hm10 : ((m / 10 : Nat) : Int) * 10 + (m % 10 : Nat) = m := by omega
      have hn10 : ((n / 10 : Nat) : Int) * 10 + (n % 10 : Nat) = n := by omega
      rw [padded, padded, order_append hlength, hfirst, order_digit, ← compare_natCast (m / 10),
        ← compare_mul_add (k := 10) (by omega) (by omega), hm10, hn10, compare_natCast]

end Text.Decimal

namespace Date

variable {d e : Date} {year : Int} {month : Nat}

/-! ## Days -/

theorem daysBeforeMonth_succ (year : Int) (h : 1 ≤ month) :
    daysBeforeMonth year (month + 1) = daysBeforeMonth year month + daysInMonth year month := by
  obtain ⟨m, rfl⟩ : ∃ m, month = m + 1 := ⟨month - 1, by omega⟩
  simp only [daysBeforeMonth, Nat.add_sub_cancel, List.range_succ, List.foldl_append, List.foldl_cons,
    List.foldl_nil]

theorem daysBeforeMonth_add_le (year : Int) {m n : Nat} (hm : 1 ≤ m) (h : m < n) :
    daysBeforeMonth year m + daysInMonth year m ≤ daysBeforeMonth year n := by
  induction n with
  | zero => omega
  | succ n ih =>
      rw [daysBeforeMonth_succ year (by omega)]
      rcases Nat.lt_or_ge m n with hn | hn
      · have := ih hn
        omega
      · obtain rfl : m = n := by omega
        omega

theorem daysBeforeMonth_thirteen (year : Int) :
    daysBeforeMonth year 13 = if isLeapYear year then 366 else 365 := by
  have hmonths : daysBeforeMonth year 13 = 337 + daysInMonth year 2 := by
    simp only [daysBeforeMonth, List.range_succ, List.range_zero, List.nil_append, List.cons_append,
      List.foldl_cons, List.foldl_nil, daysInMonth]
    omega
  rw [hmonths, daysInMonth]
  split <;> rfl

theorem isLeapYear_iff (year : Int) :
    isLeapYear year = true ↔ year % 4 = 0 ∧ (year % 100 ≠ 0 ∨ year % 400 = 0) := by
  simp [isLeapYear]

/-- The days of a year come before those of every later one. -/
theorem daysBeforeYear_add_le {y z : Int} (h : y < z) :
    daysBeforeYear y + daysBeforeMonth y 13 ≤ daysBeforeYear z := by
  have hleap := isLeapYear_iff y
  rw [daysBeforeMonth_thirteen]
  simp only [daysBeforeYear]
  cases hy : isLeapYear y with
  | true =>
      rw [hy] at hleap
      simp only [true_iff] at hleap
      simp only [if_true]
      omega
  | false =>
      rw [hy] at hleap
      simp only [Bool.false_eq_true, false_iff, if_false] at hleap ⊢
      omega

theorem dayNumber_lt_of_year (h : d.year < e.year) : d.dayNumber < e.dayNumber := by
  have hyear := daysBeforeYear_add_le h
  have hbefore : d.month < 13 := Nat.lt_succ_of_le d.month_range.2
  have hmonth := daysBeforeMonth_add_le d.year d.month_range.1 hbefore
  have := d.day_range
  rw [dayNumber, dayNumber]
  omega

theorem dayNumber_lt_of_month (hy : d.year = e.year) (h : d.month < e.month) :
    d.dayNumber < e.dayNumber := by
  have hmonth := daysBeforeMonth_add_le e.year d.month_range.1 h
  have := d.day_range
  rw [dayNumber, dayNumber, hy]
  rw [hy] at this
  omega

/-- Dates are in order by year, month and day. -/
theorem compare_dayNumber (d e : Date) :
    compare d.dayNumber e.dayNumber =
      (compare d.year e.year).then ((compare d.month e.month).then (compare d.day e.day)) := by
  rcases hy : compare d.year e.year with _ | _ | _
  · exact Int.compare_eq_lt.mpr (dayNumber_lt_of_year (Int.compare_eq_lt.mp hy))
  · have hy := Int.compare_eq_eq.mp hy
    rw [Ordering.eq_then]
    rcases hm : compare d.month e.month with _ | _ | _
    · exact Int.compare_eq_lt.mpr (dayNumber_lt_of_month hy (Nat.compare_eq_lt.mp hm))
    · have hm := Nat.compare_eq_eq.mp hm
      have := d.day_range
      have := e.day_range
      rw [Ordering.eq_then, ← compare_natCast, dayNumber, dayNumber, hy, hm]
      refine compare_eq (fun h => ?_) (fun h => ?_) (fun h => ?_)
      · have := Int.compare_eq_lt.mp h
        omega
      · have := Int.compare_eq_eq.mp h
        omega
      · have := Int.compare_eq_gt.mp h
        omega
    · exact Int.compare_eq_gt.mpr (dayNumber_lt_of_month hy.symm (Nat.compare_eq_gt.mp hm))
  · exact Int.compare_eq_gt.mpr (dayNumber_lt_of_year (Int.compare_eq_gt.mp hy))

end Date

namespace Timestamp

variable {t u : Timestamp}

/-- The order of two points in time by all that comes after the year. -/
def orderInYear (t u : Timestamp) : Ordering :=
  (compare t.date.month u.date.month).then <|
    (compare t.date.day u.date.day).then <|
      (compare t.hour u.hour).then <|
        (compare t.minute u.minute).then <|
          (compare t.second u.second).then (compare t.nanosecond u.nanosecond)

theorem compare_instant (t u : Timestamp) :
    compare t.instant u.instant = (compare t.date.year u.date.year).then (orderInYear t u) := by
  have hparts (t : Timestamp) : t.instant =
      (((t.date.dayNumber * 24 + t.hour) * 60 + t.minute) * 60 + t.second) * 1000000000 + t.nanosecond := by
    rw [instant]
    omega
  have hhours := t.hour_range
  have hhours' := u.hour_range
  have hminutes := t.minute_range
  have hminutes' := u.minute_range
  have hseconds := t.second_range
  have hseconds' := u.second_range
  have hnanos := t.nanosecond_range
  have hnanos' := u.nanosecond_range
  rw [hparts, hparts, compare_mul_add (by omega) (by omega), compare_mul_add (by omega) (by omega),
    compare_mul_add (by omega) (by omega), compare_mul_add (by omega) (by omega), Date.compare_dayNumber,
    orderInYear]
  simp only [Ordering.then_assoc]

/-! ## Fractions of a second -/

/-- No zero stands at the end. -/
def Trimmed (s : List Char) : Prop := s.getLast? ≠ some '0'

theorem trimmed_dropZeros (s : List Char) : Trimmed (dropZeros s) := by
  have hhead := List.head?_dropWhile_not (· == '0') s.reverse
  rw [Trimmed, dropZeros, List.getLast?_reverse]
  intro h
  rw [h] at hhead
  cases hhead

theorem Trimmed.tail {c : Char} {s : List Char} (h : Trimmed (c :: s)) : Trimmed s := by
  cases s with
  | nil => nofun
  | cons d s => rwa [Trimmed, List.getLast?_cons_cons] at h

theorem zero_le_of_isDigit {c : Char} (h : Decimal.isDigit c = true) : '0'.toNat ≤ c.toNat := by
  simp only [Decimal.isDigit, Bool.and_eq_true, decide_eq_true_eq] at h
  exact h.1

/-- Digits that do not end in a zero are greater than as many zeros. -/
theorem order_zeros_lt {s : List Char} (hs : s ≠ []) (ht : Trimmed s)
    (hd : ∀ c ∈ s, Decimal.isDigit c = true) (j : Nat) :
    order (List.replicate (s.length + j) '0') (s ++ List.replicate j '0') = .lt := by
  induction s with
  | nil => exact absurd rfl hs
  | cons c s ih =>
      have hc := zero_le_of_isDigit (hd c (List.mem_cons_self ..))
      have hlength : (c :: s).length + j = s.length + j + 1 := by
        rw [List.length_cons]
        omega
      rw [hlength, List.replicate_succ, List.cons_append, order]
      split
      · rfl
      · rw [if_neg (by omega)]
        have hzero : c = '0' := Char.toNat_inj.mp (by omega)
        have hne : s ≠ [] := by
          rintro rfl
          exact ht (congrArg some hzero)
        exact ih hne ht.tail fun d hm => hd d (List.mem_cons_of_mem _ hm)

/-- Zeros at the end of digits do not matter for their order. -/
theorem order_trimmed {s t : List Char} (hs : Trimmed s) (ht : Trimmed t)
    (hds : ∀ c ∈ s, Decimal.isDigit c = true) (hdt : ∀ c ∈ t, Decimal.isDigit c = true) {i j : Nat}
    (h : s.length + i = t.length + j) :
    order (s ++ List.replicate i '0') (t ++ List.replicate j '0') = order s t := by
  fun_induction order s t with
  | case1 =>
      obtain rfl : i = j := by simpa using h
      exact order_self _
  | case2 c t =>
      obtain rfl : i = (c :: t).length + j := by simpa using h
      exact order_zeros_lt (List.cons_ne_nil _ _) ht hdt j
  | case3 c s =>
      obtain rfl : j = (c :: s).length + i := by simpa using h.symm
      rw [← order_swap]
      exact congrArg Ordering.swap (order_zeros_lt (List.cons_ne_nil _ _) hs hds i)
  | case4 a s b t hab => simp [order, hab]
  | case5 a s b t hab hba => simp [order, hab, hba]
  | case6 a s b t hab hba ih =>
      rw [List.cons_append, List.cons_append, order, if_neg hab, if_neg hba]
      refine ih hs.tail ht.tail (fun c hc => hds c (List.mem_cons_of_mem _ hc))
        (fun c hc => hdt c (List.mem_cons_of_mem _ hc)) ?_
      simp only [List.length_cons] at h
      omega

theorem order_dropZeros {m n : Nat} (hm : m < 1000000000) (hn : n < 1000000000) :
    order (dropZeros (Decimal.padded 9 m)) (dropZeros (Decimal.padded 9 n)) = compare m n := by
  obtain ⟨i, hi⟩ := dropZeros_append (Decimal.padded 9 m)
  obtain ⟨j, hj⟩ := dropZeros_append (Decimal.padded 9 n)
  have hlength : (dropZeros (Decimal.padded 9 m)).length + i =
      (dropZeros (Decimal.padded 9 n)).length + j := by
    have hm9 := congrArg List.length hi
    have hn9 := congrArg List.length hj
    rw [List.length_append, List.length_replicate, Decimal.length_padded] at hm9 hn9
    omega
  rw [← order_trimmed (trimmed_dropZeros _) (trimmed_dropZeros _) (fun _ => isDigit_of_mem_dropZeros)
    (fun _ => isDigit_of_mem_dropZeros) hlength, hi, hj]
  exact Decimal.order_padded hm hn

theorem order_printFraction {m n : Nat} (hm : m < 1000000000) (hn : n < 1000000000) :
    order (printFraction m) (printFraction n) = compare m n := by
  unfold printFraction
  by_cases hm0 : m = 0
  · by_cases hn0 : n = 0
    · rw [if_pos hm0, if_pos hn0, hm0, hn0]
      rfl
    · rw [if_pos hm0, if_neg hn0, hm0]
      exact (Nat.compare_eq_lt.mpr (by omega)).symm
  · by_cases hn0 : n = 0
    · rw [if_neg hm0, if_pos hn0, hn0]
      exact (Nat.compare_eq_gt.mpr (by omega)).symm
    · rw [if_neg hm0, if_neg hn0]
      exact (order_append_left ['.'] _ _).trans (order_dropZeros hm hn)

/-! ## Points in time -/

/-- The canonical form without the year. -/
def printAfterYear (t : Timestamp) : List Char :=
  '-' :: (Decimal.padded 2 t.date.month ++ '-' :: (Decimal.padded 2 t.date.day ++
    'T' :: (Decimal.padded 2 t.hour ++ ':' :: (Decimal.padded 2 t.minute ++
      ':' :: (Decimal.padded 2 t.second ++ printFraction t.nanosecond)))))

theorem print_eq (t : Timestamp) : t.print = printYear t.date.year ++ printAfterYear t := t.print_eq_written

/-- A field of two digits behind its sign comes first in the order. -/
theorem order_field (c : Char) {m n : Nat} (hm : m < 100) (hn : n < 100) (s s' : List Char) :
    order (c :: (Decimal.padded 2 m ++ s)) (c :: (Decimal.padded 2 n ++ s')) =
      (compare m n).then (order s s') := by
  have hlength : (Decimal.padded 2 m).length = (Decimal.padded 2 n).length := by
    rw [Decimal.length_padded, Decimal.length_padded]
  have hcons := order_append_left [c] (Decimal.padded 2 m ++ s) (Decimal.padded 2 n ++ s')
  rw [List.singleton_append, List.singleton_append] at hcons
  rw [hcons, order_append hlength, Decimal.order_padded hm hn]

theorem order_printAfterYear (t u : Timestamp) :
    order (printAfterYear t) (printAfterYear u) = orderInYear t u := by
  obtain ⟨hmonth, hday, hhour, hminute, hsecond⟩ := t.parts_lt
  obtain ⟨hmonth', hday', hhour', hminute', hsecond'⟩ := u.parts_lt
  rw [printAfterYear, printAfterYear, order_field _ hmonth hmonth', order_field _ hday hday',
    order_field _ hhour hhour', order_field _ hminute hminute', order_field _ hsecond hsecond',
    order_printFraction t.nanosecond_range u.nanosecond_range, orderInYear]

theorem order_printYear {y z : Int} (hy : 0 ≤ y ∧ y ≤ 9999) (hz : 0 ≤ z ∧ z ≤ 9999) :
    order (printYear y) (printYear z) = compare y z := by
  rw [printYear, printYear, if_neg (by omega), if_neg (by omega), List.nil_append, List.nil_append,
    Decimal.order_padded (by omega) (by omega), ← compare_natCast, Int.natAbs_of_nonneg hy.1,
    Int.natAbs_of_nonneg hz.1]

/-- Behind the minus sign the greater number is the earlier year. -/
theorem order_printYear_of_neg {y z : Int} (hy : -9999 ≤ y ∧ y < 0) (hz : -9999 ≤ z ∧ z < 0) :
    order (printYear y) (printYear z) = compare z y := by
  rw [printYear, printYear, if_pos hy.2, if_pos hz.2, order_append_left,
    Decimal.order_padded (by omega) (by omega), ← compare_natCast]
  refine compare_eq (fun h => ?_) (fun h => ?_) (fun h => ?_)
  · have := Int.compare_eq_lt.mp h
    omega
  · have := Int.compare_eq_eq.mp h
    omega
  · have := Int.compare_eq_gt.mp h
    omega

/-- The minus sign comes before every digit. -/
theorem order_printYear_of_neg_of_nonneg {y z : Int} (hy : y < 0) (hz : 0 ≤ z) (s s' : List Char) :
    order (printYear y ++ s) (printYear z ++ s') = .lt := by
  have hdigit := zero_le_of_isDigit (Decimal.isDigit_digit (z.natAbs / 100 / 10))
  have hminus : '-'.toNat < (Decimal.digit (z.natAbs / 100 / 10)).toNat :=
    Nat.lt_of_lt_of_le (by decide) hdigit
  rw [printYear, printYear, if_pos hy, if_neg (by omega), Decimal.padded_four z.natAbs, Decimal.padded_two]
  exact if_pos hminus

/-- Both points in time lie before the year nought, and in different years. -/
def Reversed (t u : Timestamp) : Prop := t.date.year < 0 ∧ u.date.year < 0 ∧ t.date.year ≠ u.date.year

instance (t u : Timestamp) : Decidable (Reversed t u) := inferInstanceAs (Decidable (_ ∧ _))

/-- Canonical forms are in the order of the points in time, or in the opposite order if both are in
different years before the year nought. -/
theorem order_print (t u : Timestamp) :
    order t.print u.print =
      if Reversed t u then compare u.instant t.instant else compare t.instant u.instant := by
  have ht := t.date.year_range
  have hu := u.date.year_range
  rw [print_eq, print_eq]
  by_cases hneg : t.date.year < 0
  · by_cases hneg' : u.date.year < 0
    · have hlength : (printYear t.date.year).length = (printYear u.date.year).length := by
        simp only [printYear, if_pos hneg, if_pos hneg', List.length_append, Decimal.length_padded]
      rw [order_append hlength, order_printYear_of_neg (by omega) (by omega), order_printAfterYear]
      by_cases hyear : t.date.year = u.date.year
      · rw [if_neg fun h => h.2.2 hyear, compare_instant, hyear]
      · -- The years alone decide, both in the text and in time.
        rw [if_pos ⟨hneg, hneg', hyear⟩, compare_instant]
        rcases hc : compare u.date.year t.date.year with _ | _ | _
        · rfl
        · exact absurd (Int.compare_eq_eq.mp hc).symm hyear
        · rfl
    · have hlt : compare t.date.year u.date.year = .lt := Int.compare_eq_lt.mpr (by omega)
      rw [if_neg fun h => hneg' h.2.1, order_printYear_of_neg_of_nonneg hneg (by omega), compare_instant, hlt]
      rfl
  · by_cases hneg' : u.date.year < 0
    · have hgt : compare t.date.year u.date.year = .gt := Int.compare_eq_gt.mpr (by omega)
      rw [if_neg fun h => hneg h.1, ← order_swap, order_printYear_of_neg_of_nonneg hneg' (by omega),
        compare_instant, hgt]
      rfl
    · have hlength : (printYear t.date.year).length = (printYear u.date.year).length := by
        simp only [printYear, if_neg hneg, if_neg hneg', List.nil_append, Decimal.length_padded]
      rw [if_neg fun h => hneg h.1, order_append hlength, order_printYear (by omega) (by omega),
        order_printAfterYear, compare_instant]

/-- Points in time at the same instant are the same. -/
theorem instant_inj {t u : Timestamp} : t.instant = u.instant ↔ t = u := by
  refine ⟨fun h => ?_, congrArg instant⟩
  have horder := order_print t u
  rw [h, ite_self, Int.compare_eq_eq.mpr rfl] at horder
  exact print_inj.mp (order_eq_eq_iff.mp horder)

/-- The bytes of canonical forms are in the order of the points in time just if these are not in different
years before the year nought; there they are in the opposite order. Only the canonical forms of the same point
in time are equal. -/
theorem byteOrder_render (t u : Timestamp) :
    (byteOrder t.render u.render = compare t.instant u.instant ↔ ¬ Reversed t u) ∧
      byteOrder t.render u.render =
        (if Reversed t u then (compare t.instant u.instant).swap else compare t.instant u.instant) ∧
      (byteOrder t.render u.render = .eq ↔ t = u) := by
  have horder : byteOrder t.render u.render =
      if Reversed t u then (compare t.instant u.instant).swap else compare t.instant u.instant := by
    rw [byteOrder_eq, render, render, String.toList_ofList, String.toList_ofList, order_print, Int.compare_swap]
  refine ⟨?_, horder, ?_⟩
  · rw [horder]
    by_cases hr : Reversed t u
    · have hne : compare t.instant u.instant ≠ .eq := fun h =>
        hr.2.2 (congrArg (·.date.year) (instant_inj.mp (Int.compare_eq_eq.mp h)))
      rw [if_pos hr]
      cases hc : compare t.instant u.instant <;> simp_all
    · simp [hr]
  · rw [byteOrder_eq, order_eq_eq_iff, render, render, String.toList_ofList, String.toList_ofList, print_inj]

end Timestamp

end RecordSearch

import RecordSearch.Proofs.Timestamp.Order
import RecordSearch.Timestamp.Epoch

/-!
# Dates by the number of their day

The number of a day, and of a second, is turned into the one date and point in time that has it, and there
is none just if its year would have more than four digits. The text shown for a stored time follows.
-/

namespace RecordSearch

namespace Date

/-! ## Years of a cycle

Years are counted from the first of March, and begin in the cycle of 400 years where the leap days before
them have been counted.
-/

def yearStart (year : Nat) : Nat := 365 * year + year / 4 - year / 100 + year / 400

/-- The days of a cycle up to a day, without the leap days among them. -/
def daysWithoutLeap (day : Nat) : Nat := day - day / 1460 + day / 36524 - day / 146096

theorem daysWithoutLeap_mono {a b : Nat} (h : a ≤ b) : daysWithoutLeap a ≤ daysWithoutLeap b := by
  unfold daysWithoutLeap
  omega

theorem daysWithoutLeap_yearStart :
    ∀ year < 400, 365 * year ≤ daysWithoutLeap (yearStart year) ∧
      daysWithoutLeap (yearStart (year + 1) - 1) < 365 * (year + 1) := by
  decide +kernel

/-- Every day of a cycle lies in the year that is found by its days without leap days. -/
theorem yearStart_le_and_lt {day year : Nat} (hd : day < 146097) (hy : daysWithoutLeap day / 365 = year) :
    year < 400 ∧ yearStart year ≤ day ∧ day < yearStart (year + 1) := by
  have hyear : year < 400 := by
    have hlast := daysWithoutLeap_mono (Nat.le_of_lt_succ hd)
    have : daysWithoutLeap 146096 = 145999 := by decide
    omega
  refine ⟨hyear, Nat.not_lt.mp fun hlt => ?_, Nat.not_le.mp fun hle => ?_⟩
  · cases year with
    | zero => exact absurd hlt (Nat.not_lt_zero day)
    | succ before =>
        have hmono := daysWithoutLeap_mono (Nat.le_sub_one_of_lt hlt)
        have := (daysWithoutLeap_yearStart before (by omega)).2
        omega
  · rcases Nat.lt_or_ge (year + 1) 400 with hnext | hnext
    · have hmono := daysWithoutLeap_mono hle
      have := (daysWithoutLeap_yearStart (year + 1) hnext).1
      omega
    · obtain rfl : year = 399 := by omega
      have : yearStart (399 + 1) = 146097 := by decide
      omega

/-! ## Months from March -/

/-- The days from the first of March to the first of the month so many months after it. -/
def monthStart (fromMarch : Nat) : Nat := (153 * fromMarch + 2) / 5

theorem daysInMonth_fromMarch (year : Int) {fromMarch : Nat} (h : fromMarch < 10) :
    daysInMonth year (fromMarch + 3) = monthStart (fromMarch + 1) - monthStart fromMarch := by
  interval_cases fromMarch <;> rfl

theorem daysBeforeMonth_two (year : Int) : daysBeforeMonth year 2 = 31 := by
  rw [daysBeforeMonth_succ year (Nat.le_refl 1)]
  rfl

theorem daysBeforeMonth_fromMarch (year : Int) {fromMarch : Nat} (h : fromMarch < 10) :
    daysBeforeMonth year (fromMarch + 3) = 31 + daysInMonth year 2 + monthStart fromMarch := by
  induction fromMarch with
  | zero => rw [daysBeforeMonth_succ year (by decide), daysBeforeMonth_two]; rfl
  | succ f ih =>
      have hlength := @daysInMonth_fromMarch year f (by omega)
      rw [daysBeforeMonth_succ year (by omega), ih (by omega), hlength]
      unfold monthStart
      omega

theorem daysInMonth_february (year : Int) : daysInMonth year 2 = if isLeapYear year then 29 else 28 := rfl

theorem daysBeforeYear_succ (year : Int) :
    daysBeforeYear (year + 1) = daysBeforeYear year + 337 + daysInMonth year 2 := by
  have hleap := isLeapYear_iff year
  rw [daysInMonth_february]
  simp only [daysBeforeYear]
  cases hy : isLeapYear year with
  | true =>
      rw [hy] at hleap
      simp only [true_iff] at hleap
      simp only [if_true]
      omega
  | false =>
      rw [hy] at hleap
      simp only [Bool.false_eq_true, false_iff, if_false] at hleap ⊢
      omega

/-! ## Dates -/

/-- The parts are those of a date, of a year with any number of digits, and its day has the number. -/
structure IsDay (number : Int) (year : Int) (month day : Nat) : Prop where
  month_range : 1 ≤ month ∧ month ≤ 12
  day_range : 1 ≤ day ∧ day ≤ daysInMonth year month
  number_eq : daysBeforeYear year + daysBeforeMonth year month + (day - 1 : Nat) = number

theorem daysBeforeYear_yearStart {year : Nat} (h : year < 400) (cycle : Int) :
    daysBeforeYear (year + cycle * 400 + 1) = 146097 * cycle + yearStart year - 719162 := by
  simp only [daysBeforeYear, yearStart]
  omega

/-- A year that is longer than 365 days ends with the leap day of the next year of the calendar. -/
theorem isLeapYear_of_yearStart {year : Nat} (h : year < 400) (cycle : Int)
    (hl : yearStart year + 365 < yearStart (year + 1)) : isLeapYear (year + cycle * 400 + 1) = true := by
  rw [isLeapYear_iff]
  unfold yearStart at hl
  omega

theorem isDay_fromMarch {year inYear : Nat} (hy : year < 400) (cycle : Int)
    (hd : yearStart year + inYear < yearStart (year + 1)) :
    let fromMarch := (5 * inYear + 2) / 153
    let month := if fromMarch < 10 then fromMarch + 3 else fromMarch - 9
    IsDay (146097 * cycle + yearStart year + inYear - 719468)
      (year + cycle * 400 + (if month ≤ 2 then 1 else 0)) month (inYear - monthStart fromMarch + 1) := by
  intro fromMarch month
  have hbefore := daysBeforeYear_yearStart hy cycle
  have hlength : inYear ≤ 365 := by
    unfold yearStart at hd
    omega
  have hmonth : monthStart fromMarch ≤ inYear ∧ inYear < monthStart (fromMarch + 1) := by
    simp only [monthStart, fromMarch]
    omega
  by_cases hm : fromMarch < 10
  · have he : month = fromMarch + 3 := if_pos hm
    have hsucc := daysBeforeYear_succ (year + cycle * 400)
    have hdays := daysInMonth_fromMarch (year + cycle * 400) hm
    rw [he, if_neg (by omega), Int.add_zero]
    refine ⟨by omega, by omega, ?_⟩
    rw [daysBeforeMonth_fromMarch _ hm]
    omega
  · have hm' : fromMarch = 10 ∨ fromMarch = 11 := by
      simp only [fromMarch] at hm ⊢
      omega
    rcases hm' with he | he
    · have hmonth' : month = 1 := by simp only [month, he]; rfl
      rw [he] at hmonth ⊢
      simp only [monthStart] at hmonth ⊢
      rw [hmonth', if_pos (by decide)]
      refine ⟨by decide, ⟨by omega, ?_⟩, ?_⟩
      · change _ ≤ 31
        omega
      · change daysBeforeYear _ + (0 : Nat) + _ = _
        omega
    · have hmonth' : month = 2 := by simp only [month, he]; rfl
      rw [he] at hmonth ⊢
      simp only [monthStart] at hmonth ⊢
      rw [hmonth', if_pos (by decide)]
      refine ⟨by decide, ⟨by omega, ?_⟩, ?_⟩
      · rw [daysInMonth_february]
        split
        · omega
        · next hleap =>
          have hshort := mt (isLeapYear_of_yearStart hy cycle) hleap
          omega
      · rw [daysBeforeMonth_two]
        omega

/-- The date of a day is made from parts that have its number. -/
theorem exists_isDay (number : Int) :
    ∃ year month day, IsDay number year month day ∧ ofDayNumber? number = make? year month day := by
  obtain ⟨cycle, hcycle⟩ : ∃ cycle, (number + 719468) / 146097 = cycle := ⟨_, rfl⟩
  obtain ⟨inCycle, hin⟩ : ∃ inCycle, ((number + 719468) % 146097).toNat = inCycle := ⟨_, rfl⟩
  obtain ⟨year, hyear⟩ : ∃ year, daysWithoutLeap inCycle / 365 = year := ⟨_, rfl⟩
  obtain ⟨hy, hfirst, hlast⟩ := yearStart_le_and_lt (by omega) hyear
  have hstart : yearStart year = 365 * year + year / 4 - year / 100 := by
    unfold yearStart
    omega
  have hday := @isDay_fromMarch year (inCycle - yearStart year) hy cycle (by omega)
  have hnumber : 146097 * cycle + yearStart year + (inCycle - yearStart year : Nat) - 719468 = number := by
    omega
  rw [hnumber] at hday
  refine ⟨_, _, _, hday, ?_⟩
  unfold daysWithoutLeap at hyear
  simp only [ofDayNumber?, hcycle, hin, hyear, ← hstart]
  rfl

variable {number year : Int} {month day : Nat} {d : Date}

theorem isDay_dayNumber (d : Date) : IsDay d.dayNumber d.year d.month d.day :=
  ⟨d.month_range, d.day_range, rfl⟩

theorem IsDay.dayNumber (h : IsDay number year month day) (hd : make? year month day = some d) :
    d.dayNumber = number := by
  obtain ⟨rfl, rfl, rfl⟩ := eq_of_make? hd
  exact h.number_eq

theorem daysBeforeYear_mono {y z : Int} (h : y ≤ z) : daysBeforeYear y ≤ daysBeforeYear z := by
  simp only [daysBeforeYear]
  omega

theorem IsDay.year_lt_iff (h : IsDay number year month day) (bound : Int) :
    year < bound ↔ number < daysBeforeYear bound := by
  constructor
  · intro hy
    have hyear := daysBeforeYear_add_le hy
    have hlast : month < 13 := Nat.lt_succ_of_le h.month_range.2
    have hmonth := daysBeforeMonth_add_le year h.month_range.1 hlast
    have hday := h.day_range
    have hnumber := h.number_eq
    omega
  · intro hn
    by_contra hy
    have hbound := daysBeforeYear_mono (Int.not_lt.mp hy)
    have hnumber := h.number_eq
    omega

theorem dayNumber_inj {e : Date} : d.dayNumber = e.dayNumber ↔ d = e := by
  refine ⟨fun h => ?_, congrArg _⟩
  have hparts := compare_dayNumber d e
  rw [h, Int.compare_eq_eq.mpr rfl, eq_comm, Ordering.then_eq_eq, Ordering.then_eq_eq] at hparts
  obtain ⟨hy, hm, hd⟩ := hparts
  have hself := make?_self d
  rw [Int.compare_eq_eq.mp hy, Nat.compare_eq_eq.mp hm, Nat.compare_eq_eq.mp hd, make?_self] at hself
  exact (Option.some.inj hself).symm

/-- The date that is found for a day is the one that has its number. -/
theorem ofDayNumber?_eq_some_iff : ofDayNumber? number = some d ↔ d.dayNumber = number := by
  obtain ⟨year, month, day, hday, heq⟩ := exists_isDay number
  refine ⟨fun h => hday.dayNumber (heq.symm.trans h), fun h => ?_⟩
  subst h
  have hyear : year = d.year := by
    have hlt := hday.year_lt_iff d.year
    have hle := hday.year_lt_iff (d.year + 1)
    have hlt' := (isDay_dayNumber d).year_lt_iff d.year
    have hle' := (isDay_dayNumber d).year_lt_iff (d.year + 1)
    omega
  have hmake : make? year month day = some ⟨year, month, day, hyear ▸ d.year_range, hday.month_range,
      hday.day_range⟩ :=
    dif_pos ⟨hyear ▸ d.year_range, hday.month_range, hday.day_range⟩
  rw [heq, hmake]
  exact congrArg some (dayNumber_inj.mp (hday.dayNumber hmake))

/-- Just the days before the year −9999 and after the year 9999 have no date. -/
theorem ofDayNumber?_eq_none_iff :
    ofDayNumber? number = none ↔ number < -4371587 ∨ 2932897 ≤ number := by
  obtain ⟨year, month, day, hday, heq⟩ := exists_isDay number
  have hfirst : year < -9999 ↔ number < -4371587 := hday.year_lt_iff (-9999)
  have hlast : year < 10000 ↔ number < 2932897 := hday.year_lt_iff 10000
  rw [heq, make?]
  constructor
  · intro h
    split at h
    · cases h
    · next hrange =>
      have hyear : ¬ (-9999 ≤ year ∧ year ≤ 9999) := fun hy => hrange ⟨hy, hday.month_range, hday.day_range⟩
      omega
  · intro h
    refine dif_neg fun hrange => ?_
    have := hrange.1
    omega

end Date

namespace Timestamp

variable {seconds : Int} {t u : Timestamp}

/-- What a point in time tells of the number of its seconds: the day, and the seconds in that day. -/
theorem instant_eq_iff : t.instant = seconds * 1000000000 ↔
    t.date.dayNumber = seconds / 86400 ∧ t.hour = (seconds % 86400).toNat / 3600 ∧
      t.minute = (seconds % 86400).toNat / 60 % 60 ∧ t.second = (seconds % 86400).toNat % 60 ∧
      t.nanosecond = 0 := by
  have hh := t.hour_range
  have hm := t.minute_range
  have hs := t.second_range
  have hn := t.nanosecond_range
  rw [instant]
  omega

theorem make?_eq_some_iff {date : Date} {hour minute second nanosecond : Nat} :
    make? date hour minute second nanosecond = some t ↔
      t.date = date ∧ t.hour = hour ∧ t.minute = minute ∧ t.second = second ∧ t.nanosecond = nanosecond := by
  refine ⟨fun h => ?_, ?_⟩
  · unfold make? at h
    split at h
    · cases h
      exact ⟨rfl, rfl, rfl, rfl, rfl⟩
    · cases h
  · rintro ⟨rfl, rfl, rfl, rfl, rfl⟩
    exact make?_self t

/-- The point in time that is found for a number of seconds is the one that lies so many after the start of
1970. -/
theorem ofEpoch?_eq_some_iff : ofEpoch? seconds = some t ↔ t.instant = seconds * 1000000000 := by
  rw [instant_eq_iff]
  simp only [ofEpoch?, Option.bind_eq_bind, Option.bind_eq_some_iff, Date.ofDayNumber?_eq_some_iff,
    make?_eq_some_iff]
  constructor
  · rintro ⟨date, hday, rfl, hclock⟩
    exact ⟨hday, hclock⟩
  · rintro ⟨hday, hclock⟩
    exact ⟨t.date, hday, rfl, hclock⟩

theorem ofEpoch?_eq_none_iff :
    ofEpoch? seconds = none ↔ seconds < -377705116800 ∨ 253402300800 ≤ seconds := by
  have hclock (date : Date) : make? date ((seconds % 86400).toNat / 3600)
      ((seconds % 86400).toNat / 60 % 60) ((seconds % 86400).toNat % 60) 0 ≠ none := by
    rw [make?, dif_pos (by omega)]
    exact Option.some_ne_none _
  simp only [ofEpoch?, Option.bind_eq_bind, Option.bind_eq_none_iff, hclock, imp_false]
  rw [← Option.eq_none_iff_forall_ne_some, Date.ofDayNumber?_eq_none_iff]
  omega

/-! ## Stored times -/

/-- The point in time as RFC 3339 writes it in universal time: the canonical form with a `Z`. -/
def rfc3339 (t : Timestamp) : String := t.render ++ "Z"

theorem rfc3339_inj : t.rfc3339 = u.rfc3339 ↔ t = u := by
  rw [rfc3339, rfc3339, String.append_left_inj, render, render, String.ofList_inj, print_inj]

/-- From 1970 on the form for universal time is that of RFC 3339. -/
theorem printUniversal_of_instant (h : t.instant = seconds * 1000000000) (hs : 0 ≤ seconds) :
    String.ofList t.printUniversal = t.rfc3339 := by
  obtain ⟨hday, _, _, _, hnanosecond⟩ := instant_eq_iff.mp h
  have hyear : t.date.year < 1970 ↔ t.date.dayNumber < 0 := (Date.isDay_dayNumber t.date).year_lt_iff 1970
  have hprint : t.printUniversal = t.print ++ ['Z'] := by
    rw [printUniversal, if_neg (by omega), print, hnanosecond]
    simp [printFraction]
  rw [hprint, String.ofList_append]
  rfl

/-- How a stored time is shown: exactly up to the year 9999, and not at all beyond it, save that the last
377705116800 times are taken as so many seconds before 1970, which are the years from −9999 on. -/
inductive Shows (time : UInt64) : Option String → Prop
  | exact {t : Timestamp} (hb : time.toNat < 253402300800) (h : t.instant = time.toNat * 1000000000) :
      Shows time (some t.rfc3339)
  | absent (hb : 253402300800 ≤ time.toNat) (hb' : time.toNat + 377705116800 < 0x10000000000000000) :
      Shows time none
  | wrapped {t : Timestamp} (hb : 0x10000000000000000 ≤ time.toNat + 377705116800)
      (h : t.instant = (time.toNat - 0x10000000000000000) * 1000000000) :
      Shows time (some (String.ofList t.printUniversal))

theorem toInt_toInt64 (time : UInt64) :
    time.toInt64.toInt =
      if time.toNat < 0x8000000000000000 then (time.toNat : Int) else time.toNat - 0x10000000000000000 := by
  change time.toBitVec.toInt = _
  rw [BitVec.toInt_eq_toNat_cond, UInt64.toNat_toBitVec]
  split <;> split <;> omega

theorem shows_showEpoch? (time : UInt64) : Shows time (showEpoch? time) := by
  obtain ⟨seconds, hseconds⟩ : ∃ seconds, time.toInt64.toInt = seconds := ⟨_, rfl⟩
  have hsigned := toInt_toInt64 time
  have hbound := time.toNat_lt
  rw [showEpoch?, hseconds]
  rw [hseconds] at hsigned
  cases ht : ofEpoch? seconds with
  | none =>
      rw [ofEpoch?_eq_none_iff] at ht
      exact .absent (by split at hsigned <;> omega) (by split at hsigned <;> omega)
  | some t =>
      have hrange := mt ofEpoch?_eq_none_iff.mpr (ht ▸ Option.some_ne_none t)
      rw [ofEpoch?_eq_some_iff] at ht
      rw [Option.map_some]
      split at hsigned
      · subst hsigned
        rw [printUniversal_of_instant ht (by omega)]
        exact .exact (by omega) ht
      · subst hsigned
        exact .wrapped (by omega) ht

theorem Shows.eq_showEpoch? {time : UInt64} {shown : Option String} (h : Shows time shown) :
    shown = showEpoch? time := by
  have hsigned := toInt_toInt64 time
  have hbound := time.toNat_lt
  rw [showEpoch?]
  cases h with
  | exact hb h =>
      rw [if_pos (by omega)] at hsigned
      rw [hsigned, ofEpoch?_eq_some_iff.mpr h, Option.map_some, printUniversal_of_instant h (by omega)]
  | absent =>
      have hnone : ofEpoch? time.toInt64.toInt = none :=
        ofEpoch?_eq_none_iff.mpr (by split at hsigned <;> omega)
      rw [hnone, Option.map_none]
  | wrapped hb h =>
      rw [if_neg (by omega)] at hsigned
      rw [hsigned, ofEpoch?_eq_some_iff.mpr h, Option.map_some]

/-- Of two times that are shown as they are the larger one is shown as the later point in time. -/
theorem Shows.instant_lt_iff {a b : UInt64} {t u : Timestamp} (ha : Shows a (some t.rfc3339))
    (hb : Shows b (some u.rfc3339)) (ha' : a.toNat + 377705116800 < 0x10000000000000000)
    (hb' : b.toNat + 377705116800 < 0x10000000000000000) : t.instant < u.instant ↔ a < b := by
  have hexact {time : UInt64} {v : Timestamp} (h : Shows time (some v.rfc3339))
      (hb : time.toNat + 377705116800 < 0x10000000000000000) : v.instant = time.toNat * 1000000000 := by
    generalize hs : some v.rfc3339 = shown at h
    cases h with
    | exact _ h =>
        cases rfc3339_inj.mp (Option.some.inj hs)
        exact h
    | absent => cases hs
    | wrapped => omega
  rw [hexact ha ha', hexact hb hb', UInt64.lt_iff_toNat_lt]
  omega

end Timestamp

end RecordSearch

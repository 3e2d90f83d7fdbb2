/-!
# Dates and points in time

Dates of the proleptic Gregorian calendar with years of at most four digits, and local points in time
with a resolution of a nanosecond. A value of either type is always a real date or time.
-/

namespace RecordSearch

def isLeapYear (year : Int) : Bool :=
  year % 4 == 0 && (year % 100 != 0 || year % 400 == 0)

def daysInMonth (year : Int) (month : Nat) : Nat :=
  match month with
  | 2 => if isLeapYear year then 29 else 28
  | 4 | 6 | 9 | 11 => 30
  | _ => 31

structure Date where
  year : Int
  month : Nat
  day : Nat
  year_range : -9999 ≤ year ∧ year ≤ 9999 := by decide
  month_range : 1 ≤ month ∧ month ≤ 12 := by decide
  day_range : 1 ≤ day ∧ day ≤ daysInMonth year month := by decide
  deriving DecidableEq, Repr

/-- A date and a time of day, without a time zone and without leap seconds. -/
structure Timestamp where
  date : Date
  hour : Nat
  minute : Nat
  second : Nat
  nanosecond : Nat
  hour_range : hour < 24 := by decide
  minute_range : minute < 60 := by decide
  second_range : second < 60 := by decide
  nanosecond_range : nanosecond < 1000000000 := by decide
  deriving DecidableEq, Repr

namespace Date

def make? (year : Int) (month day : Nat) : Option Date :=
  if h : (-9999 ≤ year ∧ year ≤ 9999) ∧ (1 ≤ month ∧ month ≤ 12) ∧
      1 ≤ day ∧ day ≤ daysInMonth year month then
    some ⟨year, month, day, h.1, h.2.1, h.2.2⟩
  else none

/-- The number of days in the months of the year before the given one. -/
def daysBeforeMonth (year : Int) (month : Nat) : Nat :=
  (List.range (month - 1)).foldl (fun days m => days + daysInMonth year (m + 1)) 0

/-- The number of days from the first day of 1970 to the first day of a year. -/
def daysBeforeYear (year : Int) : Int :=
  let y := year - 1
  365 * y + y / 4 - y / 100 + y / 400 - 719162

/-- The number of days from the first day of 1970. -/
def dayNumber (d : Date) : Int :=
  daysBeforeYear d.year + daysBeforeMonth d.year d.month + (d.day - 1 : Nat)

theorem make?_self (d : Date) : make? d.year d.month d.day = some d := by
  simp [make?, d.year_range, d.month_range, d.day_range]

theorem eq_of_make? {y : Int} {m k : Nat} {d : Date} (h : make? y m k = some d) :
    d.year = y ∧ d.month = m ∧ d.day = k := by
  unfold make? at h
  split at h
  · cases h; exact ⟨rfl, rfl, rfl⟩
  · cases h

end Date

namespace Timestamp

def make? (date : Date) (hour minute second nanosecond : Nat) : Option Timestamp :=
  if h : hour < 24 ∧ minute < 60 ∧ second < 60 ∧ nanosecond < 1000000000 then
    some ⟨date, hour, minute, second, nanosecond, h.1, h.2.1, h.2.2.1, h.2.2.2⟩
  else none

def midnight (date : Date) : Timestamp := ⟨date, 0, 0, 0, 0, by decide, by decide, by decide, by decide⟩

/-- The number of nanoseconds from the start of 1970, which puts points in time in order. -/
def instant (t : Timestamp) : Int :=
  ((t.date.dayNumber * 24 + t.hour) * 60 + t.minute) * 60 * 1000000000 + t.second * 1000000000 +
    t.nanosecond

theorem make?_self (t : Timestamp) :
    make? t.date t.hour t.minute t.second t.nanosecond = some t := by
  simp only [make?, t.hour_range, t.minute_range, t.second_range, t.nanosecond_range, and_self,
    dite_true]

end Timestamp

end RecordSearch

import RecordSearch.Timestamp.Text

/-!
# Seconds since the epoch

Points in time counted in seconds from the start of 1970 in universal time, and their text. Years that
a `Date` can hold are shown, all others are not.
-/

namespace RecordSearch

open Text

/-- The date a number of days after the first day of 1970, if its year has at most four digits. The
calendar repeats every 146097 days; inside such a cycle years begin on the first of March, so that the
leap day is the last of its year. -/
def Date.ofDayNumber? (n : Int) : Option Date :=
  let days := n + 719468
  let cycle := days / 146097
  let inCycle := (days % 146097).toNat
  let yearOfCycle := (inCycle - inCycle / 1460 + inCycle / 36524 - inCycle / 146096) / 365
  let inYear := inCycle - (365 * yearOfCycle + yearOfCycle / 4 - yearOfCycle / 100)
  let fromMarch := (5 * inYear + 2) / 153
  let day := inYear - (153 * fromMarch + 2) / 5 + 1
  let month := if fromMarch < 10 then fromMarch + 3 else fromMarch - 9
  let year : Int := yearOfCycle + cycle * 400 + (if month ≤ 2 then 1 else 0)
  Date.make? year month day

namespace Timestamp

/-- The point in time a number of seconds after the start of 1970. -/
def ofEpoch? (seconds : Int) : Option Timestamp := do
  let date ← Date.ofDayNumber? (seconds / 86400)
  let inDay := (seconds % 86400).toNat
  make? date (inDay / 3600) (inDay / 60 % 60) (inDay % 60) 0

/-- A point in universal time as in RFC 3339. That form has no negative years; they are written with
their offset from universal time in full. -/
def printUniversal (t : Timestamp) : List Char :=
  let clock := ':' :: Decimal.padded 2 t.minute ++ ':' :: Decimal.padded 2 t.second
  if t.date.year < 0 then
    printDate t.date ++ ' ' :: Decimal.ofNat t.hour ++ clock ++ ".0 +00:00:00".toList
  else printDate t.date ++ 'T' :: Decimal.padded 2 t.hour ++ clock ++ ['Z']

end Timestamp

/-- The text for a count of seconds since the epoch. The count is read as a signed number of 64 bits, so
that the upper half of its range lies before 1970. -/
def showEpoch? (seconds : UInt64) : Option String :=
  (Timestamp.ofEpoch? seconds.toInt64.toInt).map fun t => String.ofList t.printUniversal

end RecordSearch

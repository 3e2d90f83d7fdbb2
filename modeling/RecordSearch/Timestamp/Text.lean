import RecordSearch.Timestamp.Basic
import RecordSearch.Text.Blank
import RecordSearch.Text.Decimal

/-!
# Points in time as text

The canonical form is `YYYY-MM-DDTHH:MM:SS`, then a point and the fraction of the second without
trailing zeros if the fraction is not zero; negative years have a minus sign. The reader also takes a
plus sign, times without seconds, plain dates and fractions of any length, of which nine places count.
-/

namespace RecordSearch

open Text

namespace Timestamp

/-! ## Writing -/

/-- The year in four digits, with a minus sign before a negative one. -/
def printYear (year : Int) : List Char :=
  (if year < 0 then ['-'] else []) ++ Decimal.padded 4 year.natAbs

def printDate (d : Date) : List Char :=
  printYear d.year ++ '-' :: Decimal.padded 2 d.month ++ '-' :: Decimal.padded 2 d.day

def dropZeros (s : List Char) : List Char := (s.reverse.dropWhile (· == '0')).reverse

/-- The point and the digits of a fraction of a second; nothing for whole seconds. -/
def printFraction (nanosecond : Nat) : List Char :=
  if nanosecond = 0 then [] else '.' :: dropZeros (Decimal.padded 9 nanosecond)

/-- The canonical form. -/
def print (t : Timestamp) : List Char :=
  printDate t.date ++ 'T' :: Decimal.padded 2 t.hour ++ ':' :: Decimal.padded 2 t.minute ++
    ':' :: Decimal.padded 2 t.second ++ printFraction t.nanosecond

def render (t : Timestamp) : String := String.ofList t.print

/-! ## Reading -/

def twoDigits? : List Char → Option (Nat × List Char)
  | a :: b :: rest =>
      if Decimal.isDigit a ∧ Decimal.isDigit b then some (Decimal.ofDigits [a, b], rest) else none
  | _ => none

/-- A year of exactly four digits with an optional sign. -/
def year? (s : List Char) : Option (Int × List Char) := do
  let (negative, s) := match s with
    | '-' :: rest => (true, rest)
    | '+' :: rest => (false, rest)
    | rest => (false, rest)
  let (century, s) ← twoDigits? s
  let (years, s) ← twoDigits? s
  let n : Int := 100 * century + years
  some (if negative then -n else n, s)

def date? (s : List Char) : Option (Date × List Char) := do
  let (year, s) ← year? s
  let '-' :: s := s | none
  let (month, s) ← twoDigits? s
  let '-' :: s := s | none
  let (day, s) ← twoDigits? s
  let date ← Date.make? year month day
  some (date, s)

/-- The nanoseconds of a fraction: one or more digits, of which the first nine count. -/
def nanosecond? (s : List Char) : Option Nat :=
  if s ≠ [] ∧ s.all Decimal.isDigit then
    some (Decimal.ofDigits ((s ++ List.replicate 9 '0').take 9))
  else none

/-- The seconds after the minute, to the end of the text: none, whole ones, or a fraction. -/
def seconds? : List Char → Option (Nat × Nat)
  | [] => some (0, 0)
  | ':' :: s => do
      let (second, s) ← twoDigits? s
      match s with
      | [] => some (second, 0)
      | '.' :: s => (nanosecond? s).map fun n => (second, n)
      | _ => none
  | _ => none

def timeOn? (date : Date) : List Char → Option Timestamp
  | [] => some (midnight date)
  | 'T' :: s => do
      let (hour, s) ← twoDigits? s
      let ':' :: s := s | none
      let (minute, s) ← twoDigits? s
      let (second, nanosecond) ← seconds? s
      make? date hour minute second nanosecond
  | _ => none

/-- Reads a date, with or without a time of day, between optional blanks. -/
def parse? (s : List Char) : Option Timestamp := do
  let (date, rest) ← date? (trim s)
  timeOn? date rest

end Timestamp

end RecordSearch

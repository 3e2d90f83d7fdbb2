import RecordSearch.Json.Basic
import RecordSearch.Text.Hexadecimal

/-!
# Writing JSON

The compact form of a JSON value: no blanks, members in order, and strings in which only quotes,
backslashes and the control characters below U+0020 are escaped. Doubles are written with the fewest
digits that identify them.
-/

namespace RecordSearch.Json

open RecordSearch.Text

def escaped (c : Char) : List Char :=
  match c.toNat with
  | 0x22 => ['\x5c', '\x22']
  | 0x5C => ['\x5c', '\x5c']
  | 0x08 => ['\x5c', 'b']
  | 0x09 => ['\x5c', 't']
  | 0x0A => ['\x5c', 'n']
  | 0x0C => ['\x5c', 'f']
  | 0x0D => ['\x5c', 'r']
  | n => if n < 0x20 then ['\x5c', 'u', '0', '0', hexDigit (n / 16), hexDigit (n % 16)] else [c]

def quoted (s : String) : List Char := '\x22' :: (s.toList.flatMap escaped ++ ['\x22'])

/-- The layout of doubles: positional with at least one place after the point for numbers from 0.00001
up to 16 digits before the point, otherwise one digit before the point and an exponent. -/
def layoutDouble (digits : List Char) (place : Int) : List Char :=
  let point : Int := digits.length + place
  if 0 ≤ place ∧ point ≤ 16 then digits ++ List.replicate place.toNat '0' ++ ['.', '0']
  else if 0 < point ∧ point ≤ 16 then
    digits.take point.toNat ++ '.' :: digits.drop point.toNat
  else if -5 < point ∧ point ≤ 0 then
    '0' :: '.' :: List.replicate (-point).toNat '0' ++ digits
  else
    let fraction := match digits.drop 1 with
      | [] => []
      | rest => '.' :: rest
    digits.take 1 ++ fraction ++ 'e' :: Decimal.ofInt (point - 1)

def Binary64.print (x : Binary64) : List Char :=
  let sign := if x.negative then ['-'] else []
  if x.isZero then sign ++ ['0', '.', '0']
  else
    let (digits, place) := x.shortest
    sign ++ layoutDouble (Decimal.ofNat digits) place

def Number.print : Number → List Char
  | .integer n => Decimal.ofInt n
  | .double x => x.print

mutual

/-- The compact form of a value. -/
def print : Json → List Char
  | .null => "null".toList
  | .bool true => "true".toList
  | .bool false => "false".toList
  | .number n => n.print
  | .string s => quoted s
  | .array xs => '[' :: (printElements xs ++ [']'])
  | .object ms => '\x7b' :: (printMembers ms ++ ['\x7d'])

def printElements : List Json → List Char
  | [] => []
  | [x] => print x
  | x :: y :: xs => print x ++ ',' :: printElements (y :: xs)

def printMembers : List Member → List Char
  | [] => []
  | [(k, v)] => quoted k ++ ':' :: print v
  | (k, v) :: m :: ms => quoted k ++ ':' :: (print v ++ ',' :: printMembers (m :: ms))

end

def render (v : Json) : String := String.ofList v.print

end RecordSearch.Json

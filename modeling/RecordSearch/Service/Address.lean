import RecordSearch.Text.Decimal
import RecordSearch.Text.Hexadecimal

/-!
# Addresses

The addresses at which a service can listen: a number of the fourth or sixth version of the internet
protocol with a port. Names are no addresses.
-/

namespace RecordSearch.Service

open Text

inductive Address where
  | v4 (octets : List Nat) (port : Nat)
  /-- Eight groups of 16 bits, the number of a network interface if it is not zero, and a port. -/
  | v6 (groups : List Nat) (interface : Nat) (port : Nat)
  deriving DecidableEq, Repr

namespace Address

/-! ## Reading -/

/-- The rest of a text after a character. -/
def after? (c : Char) : List Char → Option (List Char)
  | d :: s => if c = d then some s else none
  | [] => none

/-- A decimal number below a bound, with leading zeros. -/
def number? (bound : Nat) (s : List Char) : Option (Nat × List Char) :=
  let ds := s.takeWhile Decimal.isDigit
  if ds ≠ [] ∧ Decimal.ofDigits ds < bound then some (Decimal.ofDigits ds, s.dropWhile Decimal.isDigit)
  else none

/-- A number of one octet without leading zeros. -/
def octet? (s : List Char) : Option (Nat × List Char) :=
  match s with
  | '0' :: c :: rest => if Decimal.isDigit c then none else some (0, c :: rest)
  | s => number? 256 s

def octets? (s : List Char) : Option (List Nat × List Char) := do
  let (a, s) ← octet? s
  let (b, s) ← octet? (← after? '.' s)
  let (c, s) ← octet? (← after? '.' s)
  let (d, s) ← octet? (← after? '.' s)
  some ([a, b, c, d], s)

def group? (s : List Char) : Option (Nat × List Char) :=
  let isDigit (c : Char) : Bool := (hexValue? c).isSome
  let ds := s.takeWhile isDigit
  if ds ≠ [] ∧ ds.length ≤ 4 then
    some (ds.foldl (fun n c => 16 * n + (hexValue? c).getD 0) 0, s.dropWhile isDigit)
  else none

/-- At most so many groups with colons between them. Four octets may stand for the last two; the mark
says whether they do. -/
def groups (first : Bool) : Nat → List Char → List Nat × Bool × List Char
  | 0, s => ([], false, s)
  | left + 1, s =>
      match if first then some s else after? ':' s with
      | none => ([], false, s)
      | some t =>
          match if 0 < left then octets? t else none with
          | some ([a, b, c, d], rest) => ([256 * a + b, 256 * c + d], true, rest)
          | _ =>
              match group? t with
              | some (g, rest) =>
                  let (gs, mark, rest) := groups false left rest
                  (g :: gs, mark, rest)
              | none => ([], false, s)

/-- Eight groups, of which one or more that are zero may be left out between two colons. -/
def allGroups? (s : List Char) : Option (List Nat × List Char) := do
  let (head, mark, s) := groups true 8 s
  if head.length = 8 then some (head, s)
  else if mark then none
  else
    let s ← after? ':' s
    let s ← after? ':' s
    let (tail, _, s) := groups true (7 - head.length) s
    some (head ++ List.replicate (8 - head.length - tail.length) 0 ++ tail, s)

def port? (s : List Char) : Option Nat := do
  let (port, rest) ← number? UInt16.size (← after? ':' s)
  if rest = [] then some port else none

def parse? (s : List Char) : Option Address :=
  match s with
  | '[' :: s => do
      let (groups, s) ← allGroups? s
      let (interface, s) ← match s with
        | '%' :: s => number? UInt32.size s
        | s => some (0, s)
      some (.v6 groups interface (← port? (← after? ']' s)))
  | s => do
      let (octets, s) ← octets? s
      some (.v4 octets (← port? s))

/-! ## Writing -/

def printGroup (n : Nat) : List Char :=
  let digits := [n / 4096, n / 256 % 16, n / 16 % 16].dropWhile (· = 0) ++ [n % 16]
  digits.map hexDigit

/-- Parts with separators between them. -/
def joined (separator : Char) (parts : List (List Char)) : List Char := [separator].intercalate parts

def printOctets (octets : List Nat) : List Char := joined '.' (octets.map Decimal.ofNat)

/-- Where the longest run of at least two zeros begins, the first of several, and how long it is. -/
def longestZeros (groups : List Nat) : Option (Nat × Nat) :=
  let runs := (List.range 8).map fun i => (i, ((groups.drop i).takeWhile (· = 0)).length)
  runs.foldl (fun best run => if (best.map (·.2)).getD 1 < run.2 then some run else best) none

/-- The groups, with two colons in place of the longest run of zeros. -/
def printGroups (groups : List Nat) : List Char :=
  match groups with
  | [0, 0, 0, 0, 0, 0xFFFF, a, b] =>
      "::ffff:".toList ++ printOctets [a / 256, a % 256, b / 256, b % 256]
  | groups =>
      match longestZeros groups with
      | some (start, length) =>
          joined ':' ((groups.take start).map printGroup) ++ ':' :: ':' ::
            joined ':' ((groups.drop (start + length)).map printGroup)
      | none => joined ':' (groups.map printGroup)

def print : Address → List Char
  | .v4 octets port => printOctets octets ++ ':' :: Decimal.ofNat port
  | .v6 groups interface port =>
      let suffix := if interface = 0 then [] else '%' :: Decimal.ofNat interface
      '[' :: printGroups groups ++ suffix ++ ']' :: ':' :: Decimal.ofNat port

end Address

end RecordSearch.Service

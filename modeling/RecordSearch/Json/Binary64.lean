import RecordSearch.Text.Decimal

/-!
# Binary floating-point numbers

Finite numbers of the 64-bit binary format as exact values: rounding of ratios to them, products and
quotients, and the fewest decimal digits that identify one of them.
-/

namespace RecordSearch.Json

open RecordSearch.Text

/-- The number `± mantissa · 2 ^ exponent`. Values that come from `ofRatio` have a mantissa of at most
53 bits and an exponent of at least -1074. -/
structure Binary64 where
  negative : Bool
  mantissa : Nat
  exponent : Int
  deriving DecidableEq, Repr, Inhabited

namespace Binary64

def isZero (x : Binary64) : Bool := x.mantissa == 0

def scaled (n d : Nat) (e : Int) : Nat × Nat := (n * Nat.pow 2 e.toNat, d * Nat.pow 2 (-e).toNat)

/-- The quotient of two naturals rounded to the nearest natural, a half to the even one. -/
def roundHalfEven (n d : Nat) : Nat :=
  let q := n / d
  let r := n % d
  if 2 * r < d then q else if 2 * r > d then q + 1 else if q % 2 = 0 then q else q + 1

/-- The exponent of the last binary place that the ratio `n / d` is rounded to. -/
def lastPlace (n d : Nat) : Int :=
  let guess : Int := n.log2 - d.log2 - 52
  let (a, b) := scaled n d (-guess)
  let e := if a / b < 0x10000000000000 then guess - 1 else if 0x20000000000000 ≤ a / b then guess + 1 else guess
  max e (-1074)

/-- The finite number nearest to `± n / d`, of two the one with the even mantissa; nothing if the
ratio is too large. -/
def ofRatio (negative : Bool) (n d : Nat) : Option Binary64 :=
  if n = 0 then some ⟨negative, 0, -1074⟩
  else
    let e := lastPlace n d
    let (a, b) := scaled n d (-e)
    let m := roundHalfEven a b
    let x : Binary64 := if m = 0x20000000000000 then ⟨negative, 0x10000000000000, e + 1⟩ else ⟨negative, m, e⟩
    if 971 < x.exponent then none else some x

def mul (x y : Binary64) : Option Binary64 :=
  let (n, d) := scaled (x.mantissa * y.mantissa) 1 (x.exponent + y.exponent)
  ofRatio (x.negative != y.negative) n d

def div (x y : Binary64) : Option Binary64 :=
  let (n, d) := scaled x.mantissa y.mantissa (x.exponent - y.exponent)
  ofRatio (x.negative != y.negative) n d

/-- The number nearest to a power of ten, for powers up to 308. -/
def powerOfTen (k : Nat) : Binary64 := (ofRatio false (Nat.pow 10 k) 1).getD ⟨false, 0, 0⟩

/-- Divides by ten `k` times over, in steps of at most 308 places. -/
def shiftDown (x : Binary64) (k : Nat) : Binary64 :=
  if x.isZero then x
  else if k ≤ 308 then (x.div (powerOfTen k)).getD x
  else shiftDown ((x.div (powerOfTen 308)).getD x) (k - 308)
termination_by k

/-- The number written as `significand · 10 ^ exponent`: the significand is rounded first, then the
scaling by one power of ten. Nothing if the result is too large. -/
def ofDecimal (negative : Bool) (significand : Nat) (exponent : Int) : Option Binary64 := do
  let x ← ofRatio negative significand 1
  if exponent < 0 then some (x.shiftDown exponent.natAbs)
  else if exponent ≤ 308 then x.mul (powerOfTen exponent.natAbs)
  else if x.isZero then some x
  else none

/-- The lowest decimal exponent `k` with `10 ^ (k + 1)` above the ratio `n / d`, searched upwards from
the place of the first digit after the point. -/
def decimalPlace (n d : Nat) : Int :=
  if d ≤ n then (Decimal.ofNat (n / d)).length - 1
  else
    let rec search : Nat → Nat → Int
      | 0, _ => -400
      | fuel + 1, j => if d ≤ n * Nat.pow 10 j then -j else search fuel (j + 1)
    search 400 1

/-- Whether the decimal `digits · 10 ^ place` identifies a number: it lies between the halfway points to
the two neighbouring numbers, the points included when the mantissa is even. -/
def identifies (x : Binary64) (digits : Nat) (place : Int) : Bool :=
  -- all three numbers in units of a quarter of the last binary place
  let below := if x.mantissa == 0x10000000000000 && -1074 < x.exponent then 1 else 2
  let (n, d) := scaled (digits * Nat.pow 10 place.toNat) (Nat.pow 10 (-place).toNat) (2 - x.exponent)
  let low := (4 * x.mantissa - below) * d
  let high := (4 * x.mantissa + 2) * d
  if x.mantissa % 2 = 0 then low ≤ n && n ≤ high else low < n && n < high

/-- The decimal with a given last place that lies nearest to a number and identifies it. -/
def nearestIdentifying (x : Binary64) (place : Int) : Option Nat :=
  let (n, d) := scaled (x.mantissa * Nat.pow 10 (-place).toNat) (Nat.pow 10 place.toNat) x.exponent
  let low := n / d
  let near := roundHalfEven n d
  let far := if near = low then low + 1 else low
  if x.identifies near place then some near
  else if x.identifies far place then some far
  else none

/-- The fewest decimal digits that identify a number, with the exponent of the last of them. The search
starts one place above the first digit, since a number just below a power of ten may round up to it. -/
def shortest (x : Binary64) : Nat × Int :=
  let (n, d) := scaled x.mantissa 1 x.exponent
  let top := decimalPlace n d
  let rec search : Nat → Int → Nat × Int
    | 0, place => (0, place)
    | fuel + 1, place =>
        match x.nearestIdentifying place with
        | some digits => (digits, place)
        | none => search fuel (place - 1)
  search 20 (top + 1)

end Binary64

end RecordSearch.Json

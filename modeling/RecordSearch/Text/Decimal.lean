/-!
# Decimal numerals

Whole numbers as texts of ASCII digits. Writing gives the shortest numeral; reading takes any number
of leading zeros. Main statements: what is written reads back (`natural?_ofNat`, `integer?_ofInt`).
-/

namespace RecordSearch.Text.Decimal

/-- The numeral of a digit, of the number modulo ten in general. -/
def digit (n : Nat) : Char := Char.ofNat (48 + n % 10)

def isDigit (c : Char) : Bool := 48 ≤ c.toNat && c.toNat ≤ 57

def value (c : Char) : Nat := c.toNat - 48

/-- The shortest numeral of a natural number. -/
def ofNat (n : Nat) : List Char :=
  if n < 10 then [digit n] else ofNat (n / 10) ++ [digit n]

def ofInt : Int → List Char
  | .ofNat n => ofNat n
  | .negSucc n => '-' :: ofNat (n + 1)

/-- The lowest `width` digits of a number, zeros in front. -/
def padded : Nat → Nat → List Char
  | 0, _ => []
  | width + 1, n => padded width (n / 10) ++ [digit n]

/-- The number whose digits are given, the highest first. -/
def ofDigits (s : List Char) : Nat := s.foldl (fun n c => 10 * n + value c) 0

/-- Reads one or more digits and nothing else. -/
def natural? (s : List Char) : Option Nat :=
  if s ≠ [] ∧ s.all isDigit then some (ofDigits s) else none

/-- Reads an optional sign and one or more digits. -/
def integer? : List Char → Option Int
  | '+' :: s => (natural? s).map Int.ofNat
  | '-' :: s => (natural? s).map fun n => -Int.ofNat n
  | s => (natural? s).map Int.ofNat

def int64? (s : List Char) : Option Int64 :=
  (integer? s).bind fun n => if -0x8000000000000000 ≤ n ∧ n < 0x8000000000000000 then some (Int64.ofInt n) else none

/-- Reads an unsigned numeral, a plus sign allowed, whose number fits in 64 bits. -/
def uint64? (s : List Char) : Option UInt64 :=
  let digits := match s with
    | '+' :: s => s
    | s => s
  (natural? digits).bind fun n => if n < UInt64.size then some (UInt64.ofNat n) else none

theorem isDigit_digit (n : Nat) : isDigit (digit n) = true := by
  have h : n % 10 < 10 := Nat.mod_lt _ (by decide)
  have : ∀ k < 10, isDigit (Char.ofNat (48 + k)) = true := by decide
  exact this _ h

theorem value_digit (n : Nat) : value (digit n) = n % 10 := by
  have h : n % 10 < 10 := Nat.mod_lt _ (by decide)
  have : ∀ k < 10, value (Char.ofNat (48 + k)) = k := by decide
  exact this _ h

theorem ofDigits_append_singleton (s : List Char) (c : Char) :
    ofDigits (s ++ [c]) = 10 * ofDigits s + value c := by
  simp [ofDigits]

theorem ofNat_ne_nil (n : Nat) : ofNat n ≠ [] := by
  unfold ofNat; split <;> simp

theorem all_isDigit_ofNat (n : Nat) : (ofNat n).all isDigit = true := by
  fun_induction ofNat n with
  | case1 n h => simp [isDigit_digit]
  | case2 n h ih => simp_all [isDigit_digit]

theorem ofDigits_ofNat (n : Nat) : ofDigits (ofNat n) = n := by
  fun_induction ofNat n with
  | case1 n h => simp [ofDigits, value_digit, Nat.mod_eq_of_lt h]
  | case2 n h ih => rw [ofDigits_append_singleton, ih, value_digit]; omega

theorem natural?_ofNat (n : Nat) : natural? (ofNat n) = some n := by
  simp [natural?, ofNat_ne_nil, all_isDigit_ofNat, ofDigits_ofNat]

theorem head_ofNat (n : Nat) : ∃ c s, ofNat n = c :: s ∧ isDigit c = true := by
  have h := all_isDigit_ofNat n
  cases e : ofNat n with
  | nil => exact absurd e (ofNat_ne_nil n)
  | cons c s => exact ⟨c, s, rfl, by simp_all⟩

theorem integer?_of_isDigit {c : Char} {s : List Char} (h : isDigit c = true) :
    integer? (c :: s) = (natural? (c :: s)).map Int.ofNat := by
  unfold integer?
  split
  · simp_all [isDigit]
  · simp_all [isDigit]
  · rfl

theorem integer?_ofInt (n : Int) : integer? (ofInt n) = some n := by
  cases n with
  | ofNat n =>
      obtain ⟨c, s, e, h⟩ := head_ofNat n
      rw [ofInt, e, integer?_of_isDigit h, ← e, natural?_ofNat]; rfl
  | negSucc n => simp only [ofInt, integer?, natural?_ofNat]; rfl

theorem length_padded (width n : Nat) : (padded width n).length = width := by
  induction width generalizing n with
  | zero => rfl
  | succ width ih => simp [padded, ih]

end RecordSearch.Text.Decimal

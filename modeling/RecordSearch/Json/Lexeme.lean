import RecordSearch.Json.Basic
import RecordSearch.Text.Hexadecimal

/-!
# Lexemes of JSON

Readers for what a JSON text is made of: blanks, quoted strings and numerals. A reader returns what it
read and the rest of the text, or nothing if the text does not start with such a lexeme. Every reader
leaves less than it was given (`quotedRest_length`, `numeral_length`).
-/

namespace RecordSearch.Json

open RecordSearch.Text

/-- The blanks that may stand between the tokens of a JSON text. -/
def isGap (c : Char) : Bool := c = ' ' || c = '\n' || c = '\t' || c = '\r'

def skipGaps (s : List Char) : List Char := s.dropWhile isGap

/-! ## Strings -/

def hexUnit? : List Char → Option (Nat × List Char)
  | a :: b :: c :: d :: rest => do
      let a ← hexValue? a
      let b ← hexValue? b
      let c ← hexValue? c
      let d ← hexValue? d
      some (((a * 16 + b) * 16 + c) * 16 + d, rest)
  | _ => none

/-- Whether a 16-bit unit opens a surrogate pair. -/
def isHighSurrogate (n : Nat) : Bool := 0xD800 ≤ n && n < 0xDC00

/-- Whether a 16-bit unit closes a surrogate pair. -/
def isLowSurrogate (n : Nat) : Bool := 0xDC00 ≤ n && n < 0xE000

/-- The character after the `u` of an escape: one unit, or two units of a surrogate pair. -/
def unicodeEscape? (s : List Char) : Option (Char × List Char) := do
  let (high, rest) ← hexUnit? s
  if isHighSurrogate high then
    match rest with
    | '\x5c' :: 'u' :: rest =>
        let (low, rest) ← hexUnit? rest
        if isLowSurrogate low then
          some (Char.ofNat (0x10000 + (high - 0xD800) * 0x400 + (low - 0xDC00)), rest)
        else none
    | _ => none
  else if isLowSurrogate high then none
  else some (Char.ofNat high, rest)

def escape? : List Char → Option (Char × List Char)
  | '\x22' :: rest => some ('\x22', rest)
  | '\x5c' :: rest => some ('\x5c', rest)
  | '/' :: rest => some ('/', rest)
  | 'b' :: rest => some ('\x08', rest)
  | 'f' :: rest => some ('\x0c', rest)
  | 'n' :: rest => some ('\n', rest)
  | 'r' :: rest => some ('\r', rest)
  | 't' :: rest => some ('\t', rest)
  | 'u' :: rest => unicodeEscape? rest
  | _ => none

theorem hexUnit_length {s rest : List Char} {n : Nat} (h : hexUnit? s = some (n, rest)) :
    rest.length < s.length := by
  unfold hexUnit? at h
  split at h
  · simp only [Option.bind_eq_bind, Option.bind_eq_some_iff, Option.some.injEq, Prod.mk.injEq] at h
    obtain ⟨_, _, _, _, _, _, _, _, _, rfl⟩ := h
    simp only [List.length_cons]
    omega
  · simp at h

theorem unicodeEscape_length {s rest : List Char} {c : Char}
    (h : unicodeEscape? s = some (c, rest)) : rest.length < s.length := by
  unfold unicodeEscape? at h
  simp only [Option.bind_eq_bind, Option.bind_eq_some_iff] at h
  obtain ⟨⟨high, r⟩, hr, h⟩ := h
  have hlt := hexUnit_length hr
  dsimp only at h
  split at h
  · split at h
    · simp only [Option.bind_eq_some_iff] at h
      obtain ⟨⟨low, q⟩, hq, h⟩ := h
      have hlq := hexUnit_length hq
      simp only [List.length_cons] at *
      split at h
      · simp only [Option.some.injEq, Prod.mk.injEq] at h
        obtain ⟨_, rfl⟩ := h
        omega
      · simp at h
    · simp at h
  · split at h
    · simp at h
    · simp only [Option.some.injEq, Prod.mk.injEq] at h
      obtain ⟨_, rfl⟩ := h
      exact hlt

theorem escape_length {s rest : List Char} {c : Char} (h : escape? s = some (c, rest)) :
    rest.length < s.length := by
  unfold escape? at h
  split at h
  case h_9 => exact Nat.lt_succ_of_lt (unicodeEscape_length h)
  case h_10 => simp at h
  all_goals
    simp only [Option.some.injEq, Prod.mk.injEq] at h
    obtain ⟨_, rfl⟩ := h
    simp

/-- Reads the inside of a string and its closing quote. A bare control character below U+0020 is
refused. -/
def quotedRest? (s : List Char) : Option (List Char × List Char) :=
  match s with
  | [] => none
  | '\x22' :: rest => some ([], rest)
  | '\x5c' :: rest =>
      match _h : escape? rest with
      | none => none
      | some (c, rest') => (quotedRest? rest').map fun (cs, r) => (c :: cs, r)
  | c :: rest =>
      if c.toNat < 0x20 then none else (quotedRest? rest).map fun (cs, r) => (c :: cs, r)
termination_by s.length
decreasing_by
  · have := escape_length _h
    simp only [List.length_cons]
    omega
  · simp

theorem quotedRest_length {s cs rest : List Char} (h : quotedRest? s = some (cs, rest)) :
    rest.length < s.length := by
  fun_induction quotedRest? s generalizing cs rest with
  | case1 => simp at h
  | case2 r => simp_all
  | case3 => simp at h
  | case4 r c r' hr ih =>
      simp only [Option.map_eq_some_iff, Prod.mk.injEq] at h
      obtain ⟨⟨cs', rest'⟩, hq, _, rfl⟩ := h
      have := ih hq
      have := escape_length hr
      simp only [List.length_cons]
      omega
  | case5 => simp at h
  | case6 c r _ _ _ ih =>
      simp only [Option.map_eq_some_iff, Prod.mk.injEq] at h
      obtain ⟨⟨cs', rest'⟩, hq, _, rfl⟩ := h
      have := ih hq
      simp only [List.length_cons]
      omega

/-! ## Numbers -/

structure Numeral where
  negative : Bool
  whole : List Char
  fraction : Option (List Char)
  /-- Whether the exponent is negative, and its digits, if there is one. -/
  exponent : Option (Bool × List Char)
  deriving DecidableEq, Repr

def digits? (s : List Char) : Option (List Char × List Char) :=
  match s.takeWhile Decimal.isDigit with
  | [] => none
  | ds => some (ds, s.dropWhile Decimal.isDigit)

/-- The digits before the point: a single zero, or digits that do not begin with one. -/
def wholeDigits? (s : List Char) : Option (List Char × List Char) :=
  match digits? s with
  | some ('0' :: _ :: _, _) => none
  | found => found

def fractionDigits? : List Char → Option (Option (List Char) × List Char)
  | '.' :: rest => (digits? rest).map fun (ds, r) => (some ds, r)
  | rest => some (none, rest)

def exponentDigits? : List Char → Option (Option (Bool × List Char) × List Char)
  | c :: rest =>
      if c = 'e' ∨ c = 'E' then
        let (negative, rest) := match rest with
          | '+' :: r => (false, r)
          | '-' :: r => (true, r)
          | r => (false, r)
        (digits? rest).map fun (ds, r) => (some (negative, ds), r)
      else some (none, c :: rest)
  | [] => some (none, [])

def numeral? (s : List Char) : Option (Numeral × List Char) := do
  let (negative, s) := match s with
    | '-' :: rest => (true, rest)
    | rest => (false, rest)
  let (whole, s) ← wholeDigits? s
  let (fraction, s) ← fractionDigits? s
  let (exponent, s) ← exponentDigits? s
  some (⟨negative, whole, fraction, exponent⟩, s)

/-- Appends digits to a significand until it would leave 64 bits; returns the significand and the
number of digits taken. -/
def takeDigits : Nat → List Char → Nat × Nat
  | significand, [] => (significand, 0)
  | significand, c :: cs =>
      let next := 10 * significand + Decimal.value c
      if next < UInt64.size then
        let (m, k) := takeDigits next cs
        (m, k + 1)
      else (significand, 0)

/-- Appends digits to an exponent until it would leave 31 bits. -/
def exponentValue? (ds : List Char) : Option Nat :=
  let n := Decimal.ofDigits ds
  if n < 0x80000000 then some n else none

/-- The double that a numeral denotes. The digits that fit in 64 bits make up the significand, further
ones before the point count as zeros and after it as nothing. Nothing if the number is too large. -/
def Numeral.toDouble? (n : Numeral) : Option Binary64 :=
  let (m, taken) := takeDigits 0 n.whole
  let (m, places) := takeDigits m (n.fraction.getD [])
  let point : Int := (n.whole.length - taken : Nat) - (places : Int)
  match n.exponent with
  | none => Binary64.ofDecimal n.negative m point
  | some (negative, ds) =>
      match exponentValue? ds with
      | some e => Binary64.ofDecimal n.negative m (if negative then point - e else point + e)
      | none => if m ≠ 0 ∧ ¬ negative then none else some ⟨n.negative, 0, -1074⟩

/-- The number that a numeral denotes: an integer if it has neither point nor exponent and is in the
range of 64-bit integers with or without sign, a double otherwise. Negative zero is a double. -/
def Numeral.toNumber? (n : Numeral) : Option Number :=
  let value := Decimal.ofDigits n.whole
  let fits := if n.negative then 0 < value ∧ value ≤ 0x8000000000000000 else value < UInt64.size
  if n.fraction.isNone ∧ n.exponent.isNone ∧ fits then
    some (.integer (if n.negative then -value else value))
  else n.toDouble?.map .double

theorem digits_length {s ds rest : List Char} (h : digits? s = some (ds, rest)) :
    rest.length < s.length := by
  unfold digits? at h
  cases s with
  | nil => simp at h
  | cons c s =>
      by_cases hc : Decimal.isDigit c = true
      · simp only [List.takeWhile_cons, hc, if_true, List.dropWhile_cons, Option.some.injEq,
          Prod.mk.injEq] at h
        obtain ⟨_, rfl⟩ := h
        exact Nat.lt_succ_of_le (List.dropWhile_sublist Decimal.isDigit).length_le
      · simp [hc] at h

theorem wholeDigits_length {s ds rest : List Char} (h : wholeDigits? s = some (ds, rest)) :
    rest.length < s.length := by
  unfold wholeDigits? at h
  split at h
  · simp at h
  · exact digits_length h

theorem fractionDigits_length {s rest : List Char} {ds : Option (List Char)}
    (h : fractionDigits? s = some (ds, rest)) : rest.length ≤ s.length := by
  unfold fractionDigits? at h
  split at h
  · simp only [Option.map_eq_some_iff, Prod.mk.injEq] at h
    obtain ⟨⟨d, r⟩, hd, _, rfl⟩ := h
    exact Nat.le_of_lt (Nat.lt_succ_of_lt (digits_length hd))
  · simp_all

theorem exponentDigits_length {s rest : List Char} {e : Option (Bool × List Char)}
    (h : exponentDigits? s = some (e, rest)) : rest.length ≤ s.length := by
  unfold exponentDigits? at h
  split at h
  · split at h
    · simp only [Option.map_eq_some_iff, Prod.mk.injEq] at h
      obtain ⟨⟨d, r⟩, hd, _, rfl⟩ := h
      have := digits_length hd
      split at this <;> simp_all <;> omega
    · simp_all
  · simp_all

theorem numeral_length {s rest : List Char} {n : Numeral} (h : numeral? s = some (n, rest)) :
    rest.length < s.length := by
  unfold numeral? at h
  simp only [Option.bind_eq_bind, Option.bind_eq_some_iff, Option.some.injEq, Prod.mk.injEq] at h
  obtain ⟨⟨_, s₁⟩, h₁, ⟨_, s₂⟩, h₂, ⟨_, s₃⟩, h₃, _, rfl⟩ := h
  have a := wholeDigits_length h₁
  have b := fractionDigits_length h₂
  have c := exponentDigits_length h₃
  split at a <;> simp_all <;> omega

end RecordSearch.Json

import RecordSearch.Json.Parser
import RecordSearch.Json.Printer

/-!
# Written lexemes read back

Quoted strings and integers, followed by any text that does not continue them, are read as what was
written and leave that text.
-/

namespace RecordSearch.Json

open RecordSearch.Text

/-! ## Strings -/

theorem hexUnit?_control {n : Nat} (h : n < 0x20) (s : List Char) :
    hexUnit? ('0' :: '0' :: hexDigit (n / 16) :: hexDigit (n % 16) :: s) = some (n, s) := by
  have hhigh : hexValue? (hexDigit (n / 16)) = some (n / 16) := hexValue?_hexDigit (by omega)
  have hlow : hexValue? (hexDigit (n % 16)) = some (n % 16) := hexValue?_hexDigit (by omega)
  have hzero : hexValue? '0' = some 0 := by decide
  have hn : ((0 * 16 + 0) * 16 + n / 16) * 16 + n % 16 = n := by omega
  simp only [hexUnit?, hzero, hhigh, hlow, Option.bind_eq_bind, Option.bind_some, hn]

theorem escape?_control {c : Char} (h : c.toNat < 0x20) (s : List Char) :
    escape? ('u' :: '0' :: '0' :: hexDigit (c.toNat / 16) :: hexDigit (c.toNat % 16) :: s) =
      some (c, s) := by
  have hhigh : isHighSurrogate c.toNat = false := by
    have : ¬ 0xD800 ≤ c.toNat := by omega
    simp [isHighSurrogate, this]
  have hlow : isLowSurrogate c.toNat = false := by
    have : ¬ 0xDC00 ≤ c.toNat := by omega
    simp [isLowSurrogate, this]
  simp only [escape?, unicodeEscape?, hexUnit?_control h, hhigh, hlow, Option.bind_eq_bind,
    Option.bind_some, Bool.false_eq_true, if_false, Char.ofNat_toNat]

/-- A character is written as itself, if it is neither a quote nor a backslash nor a control character,
or as an escape that denotes it. -/
theorem escaped_cases (c : Char) :
    (escaped c = [c] ∧ c ≠ '\x22' ∧ c ≠ '\x5c' ∧ ¬ c.toNat < 0x20) ∨
      ∃ e, escaped c = '\x5c' :: e ∧ ∀ s, escape? (e ++ s) = some (c, s) := by
  have hc : ∀ n, c.toNat = n → c = Char.ofNat n := fun n h => by rw [← h, Char.ofNat_toNat]
  unfold escaped
  split
  case h_8 hq hb _ _ _ _ _ =>
    split
    · next hl => exact .inr ⟨_, rfl, fun s => escape?_control hl s⟩
    · next hl =>
        refine .inl ⟨rfl, ?_, ?_, hl⟩
        · rintro rfl; exact hq rfl
        · rintro rfl; exact hb rfl
  all_goals
    rename_i h
    exact .inr ⟨_, rfl, fun s => by rw [hc _ h]; rfl⟩

theorem quotedRest?_escaped (c : Char) (s : List Char) :
    quotedRest? (escaped c ++ s) = (quotedRest? s).map fun (cs, r) => (c :: cs, r) := by
  rcases escaped_cases c with ⟨he, hq, hb, hl⟩ | ⟨e, he, h⟩
  · rw [he, List.singleton_append, quotedRest?.eq_def]
    split
    · next e => cases e
    · next e => cases e; exact absurd rfl hq
    · next e => cases e; exact absurd rfl hb
    · next e => cases e; rw [if_neg hl]
  · rw [he, List.cons_append, quotedRest?]
    split
    · next hn => rw [h s] at hn; cases hn
    · next hs => rw [h s] at hs; cases hs; rfl

theorem quotedRest?_flatMap_escaped (cs s : List Char) :
    quotedRest? (cs.flatMap escaped ++ '\x22' :: s) = some (cs, s) := by
  induction cs with
  | nil => rw [List.flatMap_nil, List.nil_append, quotedRest?]
  | cons c cs ih => rw [List.flatMap_cons, List.append_assoc, quotedRest?_escaped, ih]; rfl

theorem string?_quoted (t : String) (s : List Char) : string? (quoted t ++ s) = some (t, s) := by
  simp [quoted, string?, quotedRest?_flatMap_escaped]

/-! ## Integers -/

/-- The text does not go on with a digit, a point or an exponent. -/
def EndsNumeral (s : List Char) : Prop :=
  ∀ c r, s = c :: r → Decimal.isDigit c = false ∧ c ≠ '.' ∧ c ≠ 'e' ∧ c ≠ 'E'

theorem digits?_append {ds s : List Char} (hne : ds ≠ []) (hd : ds.all Decimal.isDigit)
    (hs : EndsNumeral s) : digits? (ds ++ s) = some (ds, s) := by
  have hd' : ∀ c ∈ ds, Decimal.isDigit c = true := List.all_eq_true.mp hd
  have ht : s.takeWhile Decimal.isDigit = [] := by
    cases s with
    | nil => rfl
    | cons c r => simp [(hs c r rfl).1]
  have hdrop : s.dropWhile Decimal.isDigit = s := by
    cases s with
    | nil => rfl
    | cons c r => simp [(hs c r rfl).1]
  rw [digits?, List.takeWhile_append_of_pos hd', List.dropWhile_append_of_pos hd', ht, hdrop,
    List.append_nil]
  cases ds with
  | nil => exact absurd rfl hne
  | cons d ds => rfl

/-- A numeral of more than one digit does not begin with a zero. -/
theorem ofNat_ne_zero_cons (n : Nat) (c : Char) (s : List Char) : Decimal.ofNat n ≠ '0' :: c :: s := by
  fun_induction Decimal.ofNat n generalizing c s with
  | case1 n h => simp
  | case2 n h ih =>
      intro e
      cases ht : Decimal.ofNat (n / 10) with
      | nil => exact Decimal.ofNat_ne_nil _ ht
      | cons d ds =>
          cases ds with
          | cons d' ds =>
              rw [ht] at e
              cases e
              exact ih _ _ ht
          | nil =>
              rw [ht] at e
              cases e
              have hv := Decimal.ofDigits_ofNat (n / 10)
              rw [ht] at hv
              change 0 = n / 10 at hv
              omega

theorem wholeDigits?_ofNat (n : Nat) {s : List Char} (hs : EndsNumeral s) :
    wholeDigits? (Decimal.ofNat n ++ s) = some (Decimal.ofNat n, s) := by
  rw [wholeDigits?, digits?_append (Decimal.ofNat_ne_nil n) (Decimal.all_isDigit_ofNat n) hs]
  split
  · next e =>
      simp only [Option.some.injEq, Prod.mk.injEq] at e
      exact absurd e.1 (ofNat_ne_zero_cons n _ _)
  · rfl

theorem fractionDigits?_of_ends {s : List Char} (hs : EndsNumeral s) :
    fractionDigits? s = some (none, s) := by
  unfold fractionDigits?
  split
  · exact absurd rfl (hs _ _ rfl).2.1
  · rfl

theorem exponentDigits?_of_ends {s : List Char} (hs : EndsNumeral s) :
    exponentDigits? s = some (none, s) := by
  cases s with
  | nil => rfl
  | cons c r =>
      have h := (hs c r rfl).2.2
      simp [exponentDigits?, h.1, h.2]

theorem numeral?_ofInt (n : Int) {s : List Char} (hs : EndsNumeral s) :
    numeral? (Decimal.ofInt n ++ s) = some (⟨n < 0, Decimal.ofNat n.natAbs, none, none⟩, s) := by
  cases n with
  | ofNat n =>
      obtain ⟨c, r, hc, hd⟩ := Decimal.head_ofNat n
      have hw := wholeDigits?_ofNat n hs
      have hne : c ≠ '-' := by rintro rfl; cases hd
      have hpos : ¬ Int.ofNat n < 0 := by simp
      simp only [Decimal.ofInt, numeral?, hc, List.cons_append] at hw ⊢
      split
      · next e => cases e; exact absurd rfl hne
      · simp [hw, fractionDigits?_of_ends hs, exponentDigits?_of_ends hs, hc]
  | negSucc n =>
      have hneg : Int.negSucc n < 0 := Int.negSucc_lt_zero n
      simp [Decimal.ofInt, numeral?, wholeDigits?_ofNat _ hs, fractionDigits?_of_ends hs,
        exponentDigits?_of_ends hs, hneg]

theorem number?_ofInt {n : Int} (hn : -0x8000000000000000 ≤ n ∧ n < UInt64.size) {s : List Char}
    (hs : EndsNumeral s) : number? (Decimal.ofInt n ++ s) = some (ofInt n, s) := by
  have hfits : (if n < 0 then 0 < n.natAbs ∧ n.natAbs ≤ 0x8000000000000000 else n.natAbs < UInt64.size) := by
    split <;> omega
  have hvalue : (if n < 0 then -(n.natAbs : Int) else n.natAbs) = n := by
    split <;> omega
  simp only [number?, numeral?_ofInt n hs, Numeral.toNumber?, Decimal.ofDigits_ofNat, decide_eq_true_eq,
    Option.isNone_none, Option.bind_eq_bind, Option.bind_some, true_and, hfits, if_true, hvalue]
  rfl

end RecordSearch.Json

import Mathlib.Data.List.TakeWhile
import RecordSearch.Proofs.Json.RoundTrip

/-!
# Reading a text that goes on

A value that is read before the end of a text, or that shows its own end, is read in the same way when
the text goes on, and so is a number that what follows does not continue. So a text that is a value other
than a number is none any more when something else follows it, and a written value is read after blanks but
not after other characters that begin no value.
-/

namespace RecordSearch.Json

open RecordSearch.Text

variable {s rest : List Char}

/-! ## Blanks and strings -/

/-- A run of characters that ends before the end of a text ends there when the text goes on. -/
theorem run_append {p : Char → Bool} (h : s.dropWhile p ≠ []) (t : List Char) :
    (s ++ t).takeWhile p = s.takeWhile p ∧ (s ++ t).dropWhile p = s.dropWhile p ++ t := by
  induction s with
  | nil => exact absurd rfl h
  | cons c s ih =>
      cases hc : p c with
      | true =>
          simp only [List.dropWhile_cons, hc, if_true] at h
          obtain ⟨htake, hdrop⟩ := ih h
          simp only [List.cons_append, List.takeWhile_cons, List.dropWhile_cons, hc, if_true, htake, hdrop,
            and_self]
      | false => simp [hc]

theorem skipGaps_eq_nil_iff : skipGaps s = [] ↔ ∀ c ∈ s, isGap c = true := List.dropWhile_eq_nil_iff

theorem skipGaps_append (h : skipGaps s ≠ []) (t : List Char) : skipGaps (s ++ t) = skipGaps s ++ t :=
  (run_append h t).2

theorem skipGaps_gaps_append (h : skipGaps s = []) (t : List Char) : skipGaps (s ++ t) = skipGaps t :=
  List.dropWhile_append_of_pos (skipGaps_eq_nil_iff.mp h)

theorem hexUnit?_append {n : Nat} (h : hexUnit? s = some (n, rest)) (t : List Char) :
    hexUnit? (s ++ t) = some (n, rest ++ t) := by
  unfold hexUnit? at h
  split at h
  · next a b c d r =>
    simp only [Option.bind_eq_bind, Option.bind_eq_some_iff, Option.some.injEq, Prod.mk.injEq] at h
    obtain ⟨_, ha, _, hb, _, hc, _, hd, rfl, rfl⟩ := h
    simp [hexUnit?, ha, hb, hc, hd]
  · cases h

theorem unicodeEscape?_append {c : Char} (h : unicodeEscape? s = some (c, rest)) (t : List Char) :
    unicodeEscape? (s ++ t) = some (c, rest ++ t) := by
  unfold unicodeEscape? at h
  simp only [Option.bind_eq_bind, Option.bind_eq_some_iff] at h
  obtain ⟨⟨high, r⟩, hhigh, h⟩ := h
  simp only [unicodeEscape?, hexUnit?_append hhigh t, Option.bind_eq_bind, Option.bind_some]
  dsimp only at h
  split at h
  · next hpair =>
    rw [if_pos hpair]
    split at h
    · simp only [Option.bind_eq_some_iff] at h
      obtain ⟨⟨low, q⟩, hlow, h⟩ := h
      simp only [List.cons_append, hexUnit?_append hlow t, Option.bind_some]
      dsimp only at h
      split at h
      · next hl =>
        simp only [Option.some.injEq, Prod.mk.injEq] at h
        obtain ⟨rfl, rfl⟩ := h
        rw [if_pos hl]
      · cases h
    · cases h
  · next hpair =>
    rw [if_neg hpair]
    split at h
    · cases h
    · next hl =>
      simp only [Option.some.injEq, Prod.mk.injEq] at h
      obtain ⟨rfl, rfl⟩ := h
      rw [if_neg hl]

theorem escape?_append {c : Char} (h : escape? s = some (c, rest)) (t : List Char) :
    escape? (s ++ t) = some (c, rest ++ t) := by
  unfold escape? at h
  split at h
  case h_9 => exact unicodeEscape?_append h t
  case h_10 => cases h
  all_goals
    cases h
    rfl

theorem quotedRest?_append {cs : List Char} (h : quotedRest? s = some (cs, rest)) (t : List Char) :
    quotedRest? (s ++ t) = some (cs, rest ++ t) := by
  fun_induction quotedRest? s generalizing cs rest with
  | case1 => cases h
  | case2 r =>
      cases h
      rw [List.cons_append, quotedRest?]
  | case3 => cases h
  | case4 r c r' hr ih =>
      simp only [Option.map_eq_some_iff, Prod.mk.injEq] at h
      obtain ⟨⟨cs', rest'⟩, hq, rfl, rfl⟩ := h
      rw [List.cons_append, quotedRest?]
      split
      · next hn => rw [escape?_append hr t] at hn; cases hn
      · next hs =>
        rw [escape?_append hr t] at hs
        cases hs
        rw [ih hq]
        rfl
  | case5 => cases h
  | case6 c r hquote hslash hc ih =>
      simp only [Option.map_eq_some_iff, Prod.mk.injEq] at h
      obtain ⟨⟨cs', rest'⟩, hq, rfl, rfl⟩ := h
      rw [List.cons_append, quotedRest?.eq_def]
      split
      · next e => cases e
      · next e => cases e; exact absurd rfl (hquote · )
      · next e => cases e; exact absurd rfl (hslash · )
      · next e => cases e; rw [if_neg hc, ih hq]; rfl

/-! ## Numerals -/

theorem digits?_extend {ds t : List Char} (h : digits? s = some (ds, rest))
    (ht : rest = [] → EndsNumeral t) : digits? (s ++ t) = some (ds, rest ++ t) := by
  unfold digits? at h
  split at h
  · cases h
  · next hds =>
    cases h
    by_cases hne : s.dropWhile Decimal.isDigit = []
    · have hall := List.dropWhile_eq_nil_iff.mp hne
      have htake : s.takeWhile Decimal.isDigit = s := List.takeWhile_eq_self_iff.mpr hall
      rw [hne, htake]
      exact digits?_append (htake ▸ hds) (List.all_eq_true.mpr hall) (ht hne)
    · obtain ⟨htake, hdrop⟩ := run_append hne t
      rw [digits?, htake, hdrop]
      split
      · next hnil => exact absurd hnil hds
      · rfl

theorem wholeDigits?_extend {ds t : List Char} (h : wholeDigits? s = some (ds, rest))
    (ht : rest = [] → EndsNumeral t) : wholeDigits? (s ++ t) = some (ds, rest ++ t) := by
  unfold wholeDigits? at h
  split at h
  · cases h
  · next hzero =>
    rw [wholeDigits?, digits?_extend h ht]
    split
    · next e => cases e; exact absurd h (hzero _ _ _)
    · rfl

theorem fractionDigits?_extend {ds : Option (List Char)} {t : List Char}
    (h : fractionDigits? s = some (ds, rest)) (ht : rest = [] → EndsNumeral t) :
    fractionDigits? (s ++ t) = some (ds, rest ++ t) := by
  unfold fractionDigits? at h
  split at h
  · simp only [Option.map_eq_some_iff, Prod.mk.injEq] at h
    obtain ⟨⟨d, r⟩, hd, rfl, rfl⟩ := h
    rw [List.cons_append, fractionDigits?, digits?_extend hd ht, Option.map_some]
  · next hpoint =>
    cases h
    cases s with
    | nil => exact fractionDigits?_of_ends (ht rfl)
    | cons c r =>
        rw [List.cons_append, fractionDigits?]
        intro r' e
        cases e
        exact hpoint _ rfl

theorem exponentDigits?_extend {e : Option (Bool × List Char)} {t : List Char}
    (h : exponentDigits? s = some (e, rest)) (ht : rest = [] → EndsNumeral t) :
    exponentDigits? (s ++ t) = some (e, rest ++ t) := by
  unfold exponentDigits? at h
  split at h
  · next c s =>
    simp only [List.cons_append, exponentDigits?]
    split at h
    · next hmark =>
      rw [if_pos hmark]
      simp only [Option.map_eq_some_iff, Prod.mk.injEq] at h ⊢
      obtain ⟨⟨ds, r⟩, hd, rfl, rfl⟩ := h
      split at hd
      · exact ⟨_, digits?_extend hd ht, rfl, rfl⟩
      · exact ⟨_, digits?_extend hd ht, rfl, rfl⟩
      · next hplus hminus =>
        split
        · next e =>
          cases s with
          | nil => cases hd
          | cons d s => cases e; exact absurd rfl (hplus _)
        · next e =>
          cases s with
          | nil => cases hd
          | cons d s => cases e; exact absurd rfl (hminus _)
        · exact ⟨_, digits?_extend hd ht, rfl, rfl⟩
    · next hmark =>
      cases h
      rw [if_neg hmark]
      rfl
  · cases h
    exact exponentDigits?_of_ends (ht rfl)

theorem numeral?_extend {n : Numeral} {t : List Char} (h : numeral? s = some (n, rest))
    (ht : rest = [] → EndsNumeral t) : numeral? (s ++ t) = some (n, rest ++ t) := by
  simp only [numeral?, Option.bind_eq_bind, Option.bind_eq_some_iff, Option.some.injEq,
    Prod.mk.injEq] at h ⊢
  obtain ⟨⟨whole, r₁⟩, hwhole, ⟨fraction, r₂⟩, hfraction, ⟨exponent, r₃⟩, hexponent, hn, rfl⟩ := h
  have ht₂ : r₂ = [] → EndsNumeral t := by
    rintro rfl
    cases hexponent
    exact ht rfl
  have ht₁ : r₁ = [] → EndsNumeral t := by
    rintro rfl
    cases hfraction
    exact ht₂ rfl
  have hextended := wholeDigits?_extend hwhole ht₁
  split at hextended
  · subst hn
    exact ⟨_, hextended, _, fractionDigits?_extend hfraction ht₂, _,
      exponentDigits?_extend hexponent ht, rfl, rfl⟩
  · next hminus =>
    split
    · next e =>
      cases s with
      | nil => cases hwhole
      | cons d s => cases e; exact absurd rfl (hminus _)
    · subst hn
      exact ⟨_, hextended, _, fractionDigits?_extend hfraction ht₂, _,
        exponentDigits?_extend hexponent ht, by split <;> simp_all, rfl⟩

theorem number?_extend {v : Json} {t : List Char} (h : number? s = some (v, rest))
    (ht : rest = [] → EndsNumeral t) : number? (s ++ t) = some (v, rest ++ t) := by
  simp only [number?, Option.bind_eq_bind, Option.bind_eq_some_iff, Option.some.injEq, Prod.mk.injEq] at h ⊢
  obtain ⟨⟨n, r⟩, hn, m, hm, rfl, rfl⟩ := h
  exact ⟨_, numeral?_extend hn ht, m, hm, rfl, rfl⟩

/-! ## Values -/

theorem word?_append {v : Json} (h : word? s = some (v, rest)) (t : List Char) :
    word? (s ++ t) = some (v, rest ++ t) := by
  unfold word? at h
  split at h
  case h_4 => cases h
  all_goals
    cases h
    rfl

theorem string?_append {k : String} (h : string? s = some (k, rest)) (t : List Char) :
    string? (s ++ t) = some (k, rest ++ t) := by
  unfold string? at h
  split at h
  · simp only [Option.map_eq_some_iff, Prod.mk.injEq] at h
    obtain ⟨⟨cs, r⟩, hq, rfl, rfl⟩ := h
    rw [List.cons_append, string?, quotedRest?_append hq]
    rfl
  · cases h

theorem colon?_append (h : colon? s = some rest) (t : List Char) : colon? (s ++ t) = some (rest ++ t) := by
  unfold colon? at h
  split at h
  · next r hs =>
    cases h
    rw [colon?, skipGaps_append (by rw [hs]; exact List.cons_ne_nil _ _), hs]
    rfl
  · cases h

theorem head_of_number? {v : Json} (h : number? s = some (v, rest)) :
    ∃ c r, s = c :: r ∧ (Decimal.isDigit c = true ∨ c = '-') := by
  simp only [number?, numeral?, Option.bind_eq_bind, Option.bind_eq_some_iff] at h
  obtain ⟨_, ⟨⟨whole, r⟩, hwhole, _⟩, _⟩ := h
  have hdigits : ∀ {s r whole}, wholeDigits? s = some (whole, r) →
      ∃ c r, s = c :: r ∧ Decimal.isDigit c = true := by
    intro s r whole h
    cases s with
    | nil => cases h
    | cons c s =>
        refine ⟨c, s, rfl, ?_⟩
        cases hc : Decimal.isDigit c with
        | true => rfl
        | false =>
            have hnone : digits? (c :: s) = none := by simp [digits?, hc]
            rw [wholeDigits?, hnone] at h
            cases h
  split at hwhole
  · exact ⟨_, _, rfl, .inr rfl⟩
  · obtain ⟨c, r, hs, hc⟩ := hdigits hwhole
    exact ⟨c, r, hs, .inl hc⟩

theorem number?_isNumber {v : Json} (h : number? s = some (v, rest)) : ∃ n, v = .number n := by
  simp only [number?, Option.bind_eq_bind, Option.bind_eq_some_iff, Option.some.injEq, Prod.mk.injEq] at h
  obtain ⟨_, _, n, _, hv, _⟩ := h
  exact ⟨n, hv.symm⟩

theorem isGap_of_skipGaps {c : Char} {r : List Char} (h : skipGaps s = c :: r) : isGap c = false := by
  induction s with
  | nil => cases h
  | cons b s ih =>
      cases hb : isGap b with
      | true =>
          rw [skipGaps, List.dropWhile_cons, if_pos hb] at h
          exact ih h
      | false =>
          rw [skipGaps_cons hb] at h
          cases h
          exact hb

/-- The readers of values, elements and members with so many steps read the same when the text goes on,
with any number of steps that is not smaller. What follows a number must not continue it. -/
structure ReadsOn (fuel : Nat) : Prop where
  value {d fuel' : Nat} {s rest : List Char} {v : Json} (t : List Char) (hf : fuel ≤ fuel')
    (hv : rest = [] → ∀ n, v = .number n → EndsNumeral t) (h : readValue? d fuel s = some (v, rest)) :
    readValue? d fuel' (s ++ t) = some (v, rest ++ t)
  elements {d fuel' : Nat} {s rest : List Char} {xs : List Json} (t : List Char) (hf : fuel ≤ fuel')
    (h : readElements? d fuel s = some (xs, rest)) :
    readElements? d fuel' (s ++ t) = some (xs, rest ++ t)
  members {d fuel' : Nat} {s rest : List Char} {ms : List Member} (t : List Char) (hf : fuel ≤ fuel')
    (h : readMembers? d fuel s = some (ms, rest)) :
    readMembers? d fuel' (s ++ t) = some (ms, rest ++ t)

theorem readElements?_nil (d fuel : Nat) : readElements? d fuel [] = none := by
  match fuel with
  | 0 => rfl
  | 1 => rfl
  | _ + 2 => rfl

theorem readMembers?_nil (d fuel : Nat) : readMembers? d fuel [] = none := by
  cases fuel <;> rfl

variable {d fuel fuel' : Nat}

theorem skipGaps_skipGaps (s : List Char) : skipGaps (skipGaps s) = skipGaps s := by
  cases hs : skipGaps s with
  | nil => rfl
  | cons c r => exact skipGaps_cons (isGap_of_skipGaps hs) r

theorem readValue?_skipGaps (d fuel : Nat) (s : List Char) :
    readValue? d fuel (skipGaps s) = readValue? d fuel s := by
  cases fuel with
  | zero => rfl
  | succ fuel => rw [readValue?, readValue?, skipGaps_skipGaps]

theorem readValue?_bracket (d fuel : Nat) (s : List Char) :
    readValue? d (fuel + 1) ('[' :: s) =
      if d = 0 then none
      else match skipGaps s with
        | ']' :: rest => some (.array [], rest)
        | rest => (readElements? (d - 1) fuel rest).map fun (xs, r) => (.array xs, r) := rfl

theorem readValue?_brace (d fuel : Nat) (s : List Char) :
    readValue? d (fuel + 1) ('\x7b' :: s) =
      if d = 0 then none
      else match skipGaps s with
        | '\x7d' :: rest => some (.object [], rest)
        | rest => (readMembers? (d - 1) fuel rest).map fun (ms, r) => (.object ms, r) := rfl

theorem ReadsOn.array (hr : ReadsOn fuel) {v : Json} (t : List Char) (hf : fuel ≤ fuel')
    (h : readValue? d (fuel + 1) ('[' :: s) = some (v, rest)) :
    readValue? d (fuel' + 1) ('[' :: (s ++ t)) = some (v, rest ++ t) := by
  rw [readValue?_bracket] at h ⊢
  split at h
  · cases h
  · next hd =>
    rw [if_neg hd]
    split at h
    · next r hclose =>
      cases h
      rw [skipGaps_append (by rw [hclose]; exact List.cons_ne_nil _ _), hclose]
      rfl
    · next hopen =>
      simp only [Option.map_eq_some_iff, Prod.mk.injEq] at h
      obtain ⟨⟨xs, r⟩, hxs, rfl, rfl⟩ := h
      have hne : skipGaps s ≠ [] := by
        intro e
        rw [e, readElements?_nil] at hxs
        cases hxs
      rw [skipGaps_append hne]
      split
      · next e =>
        obtain ⟨c, r, hc⟩ := List.exists_cons_of_ne_nil hne
        rw [hc] at e
        cases e
        exact absurd hc (hopen r)
      · rw [hr.elements t hf hxs]
        rfl

theorem ReadsOn.object (hr : ReadsOn fuel) {v : Json} (t : List Char) (hf : fuel ≤ fuel')
    (h : readValue? d (fuel + 1) ('\x7b' :: s) = some (v, rest)) :
    readValue? d (fuel' + 1) ('\x7b' :: (s ++ t)) = some (v, rest ++ t) := by
  rw [readValue?_brace] at h ⊢
  split at h
  · cases h
  · next hd =>
    rw [if_neg hd]
    split at h
    · next r hclose =>
      cases h
      rw [skipGaps_append (by rw [hclose]; exact List.cons_ne_nil _ _), hclose]
      rfl
    · next hopen =>
      simp only [Option.map_eq_some_iff, Prod.mk.injEq] at h
      obtain ⟨⟨ms, r⟩, hms, rfl, rfl⟩ := h
      have hne : skipGaps s ≠ [] := by
        intro e
        rw [e, readMembers?_nil] at hms
        cases hms
      rw [skipGaps_append hne]
      split
      · next e =>
        obtain ⟨c, r, hc⟩ := List.exists_cons_of_ne_nil hne
        rw [hc] at e
        cases e
        exact absurd hc (hopen r)
      · rw [hr.members t hf hms]
        rfl

theorem scalar_append {v : Json} (t : List Char) (hv : rest = [] → ∀ n, v = .number n → EndsNumeral t)
    (h : ((word? s).orElse fun _ => number? s) = some (v, rest)) :
    ((word? (s ++ t)).orElse fun _ => number? (s ++ t)) = some (v, rest ++ t) := by
  cases hw : word? s with
  | some found =>
      rw [hw] at h
      cases h
      rw [word?_append hw]
      rfl
  | none =>
      rw [hw] at h
      change number? s = some (v, rest) at h
      obtain ⟨n, hn⟩ := number?_isNumber h
      obtain ⟨c, r, rfl, hc⟩ := head_of_number? h
      have hword : word? (c :: r ++ t) = none := by
        refine word?_of_head _ ?_ ?_ ?_ <;>
        · rintro rfl
          rcases hc with hc | hc <;> cases hc
      rw [hword]
      exact number?_extend h fun e => hv e n hn

theorem ReadsOn.value_succ (hr : ReadsOn fuel) {v : Json} (t : List Char) (hf : fuel ≤ fuel')
    (hv : rest = [] → ∀ n, v = .number n → EndsNumeral t) (h : readValue? d (fuel + 1) s = some (v, rest)) :
    readValue? d (fuel' + 1) (s ++ t) = some (v, rest ++ t) := by
  have hne : skipGaps s ≠ [] := by
    intro e
    rw [readValue?, e] at h
    cases h
  rw [← readValue?_skipGaps] at h ⊢
  rw [skipGaps_append hne]
  obtain ⟨c, r, hc⟩ := List.exists_cons_of_ne_nil hne
  have hgap : isGap c = false := isGap_of_skipGaps hc
  rw [hc] at h ⊢
  by_cases hquote : c = '\x22'
  · subst hquote
    rw [readValue?_string] at h
    simp only [Option.map_eq_some_iff, Prod.mk.injEq] at h
    obtain ⟨⟨cs, q⟩, hq, rfl, rfl⟩ := h
    rw [List.cons_append, readValue?_string, quotedRest?_append hq, Option.map_some]
  · by_cases harray : c = '['
    · subst harray
      exact hr.array t hf h
    · by_cases hobject : c = '\x7b'
      · subst hobject
        exact hr.object t hf h
      · rw [readValue?_scalar hgap hquote harray hobject] at h
        rw [List.cons_append, readValue?_scalar hgap hquote harray hobject]
        exact scalar_append t hv h

theorem ReadsOn.elements_succ (hr : ReadsOn fuel) {xs : List Json} (t : List Char) (hf : fuel ≤ fuel')
    (h : readElements? d (fuel + 1) s = some (xs, rest)) :
    readElements? d (fuel' + 1) (s ++ t) = some (xs, rest ++ t) := by
  simp only [readElements?, Option.bind_eq_bind, Option.bind_eq_some_iff] at h
  obtain ⟨⟨x, r⟩, hx, h⟩ := h
  have hne : skipGaps r ≠ [] := by
    intro e
    rw [e] at h
    cases h
  have hread := hr.value t hf (fun e => absurd (by rw [e]; rfl) hne) hx
  simp only [readElements?, hread, Option.bind_eq_bind, Option.bind_some, skipGaps_append hne]
  split at h
  · next r' hs =>
    simp only [Option.map_eq_some_iff, Prod.mk.injEq] at h
    obtain ⟨⟨ys, r'⟩, hys, rfl, rfl⟩ := h
    simp only [hs, List.cons_append, hr.elements t hf hys, Option.map_some]
  · next r' hs =>
    cases h
    simp only [hs, List.cons_append]
  · cases h

theorem ReadsOn.members_succ (hr : ReadsOn fuel) {ms : List Member} (t : List Char) (hf : fuel ≤ fuel')
    (h : readMembers? d (fuel + 1) s = some (ms, rest)) :
    readMembers? d (fuel' + 1) (s ++ t) = some (ms, rest ++ t) := by
  simp only [readMembers?, Option.bind_eq_bind, Option.bind_eq_some_iff] at h
  obtain ⟨⟨k, r₁⟩, hk, r₂, hcolon, ⟨v, r⟩, hv, h⟩ := h
  have hgaps : skipGaps s ≠ [] := by
    intro e
    rw [e] at hk
    cases hk
  have hne : skipGaps r ≠ [] := by
    intro e
    rw [e] at h
    cases h
  have hread := hr.value t hf (fun e => absurd (by rw [e]; rfl) hne) hv
  simp only [readMembers?, skipGaps_append hgaps, string?_append hk, colon?_append hcolon, hread,
    Option.bind_eq_bind, Option.bind_some, skipGaps_append hne]
  split at h
  · next r' hs =>
    simp only [Option.map_eq_some_iff, Prod.mk.injEq] at h
    obtain ⟨⟨ys, r'⟩, hys, rfl, rfl⟩ := h
    simp only [hs, List.cons_append, hr.members t hf hys, Option.map_some]
  · next r' hs =>
    cases h
    simp only [hs, List.cons_append]
  · cases h

theorem readsOn (fuel : Nat) : ReadsOn fuel := by
  induction fuel with
  | zero => exact ⟨fun _ _ _ h => (by cases h), fun _ _ h => (by cases h), fun _ _ h => (by cases h)⟩
  | succ fuel ih =>
      refine ⟨fun {d fuel'} _ _ _ t hf hv h => ?_, fun {d fuel'} _ _ _ t hf h => ?_, fun {d fuel'} _ _ _ t hf h => ?_⟩ <;>
        obtain ⟨f, rfl⟩ : ∃ f, fuel' = f + 1 := ⟨fuel' - 1, by omega⟩
      · exact ih.value_succ t (by omega) hv h
      · exact ih.elements_succ t (by omega) h
      · exact ih.members_succ t (by omega) h

/-- A text that is one value other than a number is no value when it goes on with more than blanks. -/
theorem parse?_append {v : Json} (h : parse? s = some v) (hv : ∀ n, v ≠ .number n) {t : List Char}
    (ht : skipGaps t ≠ []) : parse? (s ++ t) = none := by
  unfold parse? at h
  split at h
  · next w rest hread =>
    split at h
    · next hrest =>
      cases h
      have hlength : 2 * s.length + 2 ≤ 2 * (s ++ t).length + 2 := by
        rw [List.length_append]
        omega
      have hon := (readsOn _).value t hlength (fun _ n hn => absurd hn (hv n)) hread
      have hgaps : skipGaps (rest ++ t) ≠ [] := by
        intro e
        have hall := skipGaps_eq_nil_iff.mp e
        exact ht (skipGaps_eq_nil_iff.mpr fun c hc => hall c (List.mem_append_right rest hc))
      simp only [parse?, hon, if_neg hgaps]
    · cases h
  · cases h

/-- A written value is read after blanks. -/
theorem parse?_gaps_append {v : Json} (h : Plain maxDepth v) {gaps : List Char} (hg : skipGaps gaps = []) :
    parse? (gaps ++ v.print) = some v := by
  have hfuel : 2 * v.print.length ≤ 2 * (gaps ++ v.print).length + 2 := by
    rw [List.length_append]
    omega
  have hread := h.readsBack _ [] hfuel (by intro c r e; cases e)
  rw [List.append_nil] at hread
  rw [parse?, ← readValue?_skipGaps, skipGaps_gaps_append hg, readValue?_skipGaps, hread]
  rfl

/-- What the character begins is no value. -/
def BeginsNothing (c : Char) : Prop :=
  Decimal.isDigit c = false ∧ c ∉ ['\x22', '[', '\x7b', 'n', 't', 'f', '-']

theorem readValue?_of_beginsNothing {c : Char} {r : List Char} (hs : skipGaps s = c :: r)
    (h : BeginsNothing c) (d fuel : Nat) : readValue? d fuel s = none := by
  obtain ⟨hdigit, hc⟩ := h
  simp only [List.mem_cons, List.not_mem_nil, or_false, not_or] at hc
  obtain ⟨hquote, harray, hobject, hnull, htrue, hfalse, hminus⟩ := hc
  have hnumber : number? (c :: r) = none := by
    cases hn : number? (c :: r) with
    | none => rfl
    | some found =>
        obtain ⟨v, rest⟩ := found
        obtain ⟨_, _, e, hd⟩ := head_of_number? hn
        cases e
        rcases hd with hd | hd
        · rw [hdigit] at hd
          cases hd
        · exact absurd hd hminus
  cases fuel with
  | zero => rfl
  | succ fuel =>
      rw [← readValue?_skipGaps, hs, readValue?_scalar (isGap_of_skipGaps hs) hquote harray hobject,
        word?_of_head r hnull htrue hfalse]
      exact hnumber

theorem parse?_of_beginsNothing {c : Char} {r : List Char} (hs : skipGaps s = c :: r)
    (h : BeginsNothing c) : parse? s = none := by
  rw [parse?, readValue?_of_beginsNothing hs h]

end RecordSearch.Json

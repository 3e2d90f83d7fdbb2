import RecordSearch.Proofs.Json.Lexeme

/-!
# Written values read back

A value whose numbers are integers of at most 64 bits and whose nesting the reader allows is read from
its compact form.
-/

namespace RecordSearch.Json

open RecordSearch.Text

/-- Values nested at most so deep in which every number is an integer of at most 64 bits. -/
inductive Plain : Nat → Json → Prop where
  | null {d : Nat} : Plain d .null
  | bool {d : Nat} (b : Bool) : Plain d (.bool b)
  | integer {d : Nat} {n : Int} (h : -0x8000000000000000 ≤ n ∧ n < UInt64.size) : Plain d (ofInt n)
  | string {d : Nat} (s : String) : Plain d (.string s)
  | array {d : Nat} {xs : List Json} (h : ∀ x ∈ xs, Plain d x) : Plain (d + 1) (.array xs)
  | object {d : Nat} {ms : List Member} (h : ∀ m ∈ ms, Plain d m.2) : Plain (d + 1) (.object ms)

theorem Plain.mono {d d' : Nat} {v : Json} (h : Plain d v) (hd : d ≤ d') : Plain d' v := by
  induction h generalizing d' with
  | null => exact .null
  | bool b => exact .bool b
  | integer h => exact .integer h
  | string s => exact .string s
  | array h ih =>
      obtain ⟨d', rfl⟩ : ∃ e, d' = e + 1 := ⟨d' - 1, by omega⟩
      exact .array fun x hx => ih x hx (by omega)
  | object h ih =>
      obtain ⟨d', rfl⟩ : ∃ e, d' = e + 1 := ⟨d' - 1, by omega⟩
      exact .object fun m hm => ih m hm (by omega)

/-- The value is read from its compact form, whatever follows that ends a numeral. -/
def ReadsBack (d : Nat) (v : Json) : Prop :=
  ∀ fuel s, 2 * v.print.length ≤ fuel → EndsNumeral s → readValue? d fuel (v.print ++ s) = some (v, s)

/-! ## First characters -/

theorem skipGaps_cons {c : Char} (h : isGap c = false) (s : List Char) : skipGaps (c :: s) = c :: s := by
  simp [skipGaps, h]

theorem isGap_of_isDigit {c : Char} (h : Decimal.isDigit c = true) : isGap c = false := by
  cases hg : isGap c with
  | false => rfl
  | true =>
      simp only [isGap, Bool.or_eq_true, decide_eq_true_eq] at hg
      rcases hg with ((rfl | rfl) | rfl) | rfl <;> cases h

/-- An integer begins with a digit or a minus sign. -/
theorem head_ofInt (n : Int) : ∃ c s, Decimal.ofInt n = c :: s ∧ (Decimal.isDigit c = true ∨ c = '-') := by
  cases n with
  | ofNat n =>
      obtain ⟨c, s, h, hd⟩ := Decimal.head_ofNat n
      exact ⟨c, s, h, .inl hd⟩
  | negSucc n => exact ⟨'-', _, rfl, .inr rfl⟩

/-- A value begins neither with a blank nor with a closing bracket. -/
theorem Plain.head {d : Nat} {v : Json} (h : Plain d v) :
    ∃ c s, v.print = c :: s ∧ isGap c = false ∧ c ≠ ']' := by
  cases h with
  | null => exact ⟨'n', _, rfl, rfl, by decide⟩
  | bool b => cases b <;> exact ⟨_, _, rfl, rfl, by decide⟩
  | integer h =>
      rename_i n
      obtain ⟨c, s, hc, hd⟩ := head_ofInt n
      refine ⟨c, s, hc, ?_, ?_⟩
      · rcases hd with hd | rfl
        · exact isGap_of_isDigit hd
        · rfl
      · rintro rfl
        rcases hd with hd | hd <;> cases hd
  | string s => exact ⟨'\x22', _, rfl, rfl, by decide⟩
  | array h => exact ⟨'[', _, rfl, rfl, by decide⟩
  | object h => exact ⟨'\x7b', _, rfl, rfl, by decide⟩

theorem endsNumeral_cons {c : Char} (hd : Decimal.isDigit c = false) (h : c ≠ '.' ∧ c ≠ 'e' ∧ c ≠ 'E')
    (s : List Char) : EndsNumeral (c :: s) := by
  intro c' r e
  cases e
  exact ⟨hd, h⟩

theorem endsNumeral_comma (s : List Char) : EndsNumeral (',' :: s) :=
  endsNumeral_cons rfl (by decide) s

/-! ## Steps of the reader -/

theorem readValue?_scalar {c : Char} (hgap : isGap c = false) (hq : c ≠ '\x22') (ha : c ≠ '[')
    (ho : c ≠ '\x7b') (d fuel : Nat) (s : List Char) :
    readValue? d (fuel + 1) (c :: s) = (word? (c :: s)).orElse fun _ => number? (c :: s) := by
  rw [readValue?, skipGaps_cons hgap]
  split
  · next e => cases e; exact absurd rfl hq
  · next e => cases e; exact absurd rfl ha
  · next e => cases e; exact absurd rfl ho
  · rfl

theorem readValue?_string (d fuel : Nat) (s : List Char) :
    readValue? d (fuel + 1) ('\x22' :: s) =
      (quotedRest? s).map fun (cs, r) => (.string (String.ofList cs), r) := rfl

theorem readValue?_array {c : Char} (hgap : isGap c = false) (hclose : c ≠ ']') (d fuel : Nat)
    (s : List Char) :
    readValue? (d + 1) (fuel + 1) ('[' :: c :: s) =
      (readElements? d fuel (c :: s)).map fun (xs, r) => (.array xs, r) := by
  rw [readValue?, skipGaps_cons rfl]
  simp only [Nat.add_one_ne_zero, if_false, Nat.add_sub_cancel, skipGaps_cons hgap]
  split
  · next e => cases e; exact absurd rfl hclose
  · rfl

theorem readValue?_object (d fuel : Nat) (s : List Char) :
    readValue? (d + 1) (fuel + 1) ('\x7b' :: '\x22' :: s) =
      (readMembers? d fuel ('\x22' :: s)).map fun (ms, r) => (.object ms, r) := rfl

/-! ## Written forms -/

theorem print_string (t : String) (s : List Char) :
    print (.string t) ++ s = '\x22' :: (t.toList.flatMap escaped ++ '\x22' :: s) := by
  change '\x22' :: (t.toList.flatMap escaped ++ ['\x22']) ++ s = _
  rw [List.cons_append, List.append_assoc]
  rfl

theorem print_array (xs : List Json) (s : List Char) :
    print (.array xs) ++ s = '[' :: (printElements xs ++ ']' :: s) := by
  change '[' :: (printElements xs ++ [']']) ++ s = _
  rw [List.cons_append, List.append_assoc]
  rfl

theorem print_object (ms : List Member) (s : List Char) :
    print (.object ms) ++ s = '\x7b' :: (printMembers ms ++ '\x7d' :: s) := by
  change '\x7b' :: (printMembers ms ++ ['\x7d']) ++ s = _
  rw [List.cons_append, List.append_assoc]
  rfl

theorem length_print_array (xs : List Json) :
    (print (.array xs)).length = (printElements xs).length + 2 := by
  rw [← List.append_nil (print _), print_array, List.length_cons, List.length_append]
  rfl

theorem length_print_object (ms : List Member) :
    (print (.object ms)).length = (printMembers ms).length + 2 := by
  rw [← List.append_nil (print _), print_object, List.length_cons, List.length_append]
  rfl

theorem Plain.length_print_pos {d : Nat} {v : Json} (h : Plain d v) : 0 < v.print.length := by
  obtain ⟨c, s, hc, _⟩ := h.head
  rw [hc]
  exact Nat.succ_pos _

/-! ## Scalars -/

theorem word?_of_head {c : Char} (s : List Char) (hn : c ≠ 'n') (ht : c ≠ 't') (hf : c ≠ 'f') :
    word? (c :: s) = none := by
  unfold word?
  split
  · next e => cases e; exact absurd rfl hn
  · next e => cases e; exact absurd rfl ht
  · next e => cases e; exact absurd rfl hf
  · rfl

theorem readsBack_ofInt (d : Nat) {n : Int} (hn : -0x8000000000000000 ≤ n ∧ n < UInt64.size) :
    ReadsBack d (ofInt n) := by
  intro fuel s hfuel hs
  change 2 * (Decimal.ofInt n).length ≤ fuel at hfuel
  change readValue? d fuel (Decimal.ofInt n ++ s) = some (ofInt n, s)
  have hnumber := number?_ofInt hn hs
  obtain ⟨c, r, hc, hd⟩ := head_ofInt n
  rw [hc, List.length_cons] at hfuel
  rw [hc, List.cons_append] at hnumber ⊢
  obtain ⟨fuel, rfl⟩ : ∃ f, fuel = f + 1 := ⟨fuel - 1, by omega⟩
  have hgap : isGap c = false := by
    rcases hd with hd | rfl
    · exact isGap_of_isDigit hd
    · rfl
  have hne : ∀ b, Decimal.isDigit b = false → b ≠ '-' → c ≠ b := by
    rintro b hb hb' rfl
    rcases hd with hd | hd
    · rw [hb] at hd; cases hd
    · exact hb' hd
  rw [readValue?_scalar hgap (hne _ rfl (by decide)) (hne _ rfl (by decide)) (hne _ rfl (by decide)),
    word?_of_head _ (hne _ rfl (by decide)) (hne _ rfl (by decide)) (hne _ rfl (by decide))]
  exact hnumber

theorem readsBack_null (d : Nat) : ReadsBack d .null := by
  intro fuel s hfuel _
  have hpos := Plain.length_print_pos (d := d) .null
  obtain ⟨fuel, rfl⟩ : ∃ f, fuel = f + 1 := ⟨fuel - 1, by omega⟩
  rfl

theorem readsBack_bool (d : Nat) (b : Bool) : ReadsBack d (.bool b) := by
  intro fuel s hfuel _
  have hpos := Plain.length_print_pos (d := d) (.bool b)
  obtain ⟨fuel, rfl⟩ : ∃ f, fuel = f + 1 := ⟨fuel - 1, by omega⟩
  cases b <;> rfl

theorem readsBack_string (d : Nat) (t : String) : ReadsBack d (.string t) := by
  intro fuel s hfuel _
  have hpos := Plain.length_print_pos (d := d) (.string t)
  obtain ⟨fuel, rfl⟩ : ∃ f, fuel = f + 1 := ⟨fuel - 1, by omega⟩
  rw [print_string, readValue?_string, quotedRest?_flatMap_escaped, Option.map_some]
  dsimp only
  rw [String.ofList_toList]

/-! ## Arrays and objects -/

theorem readElements?_printElements {d : Nat} {xs : List Json} (hne : xs ≠ [])
    (h : ∀ x ∈ xs, ReadsBack d x) (fuel : Nat) (hfuel : 2 * (printElements xs).length + 1 ≤ fuel)
    (s : List Char) : readElements? d fuel (printElements xs ++ ']' :: s) = some (xs, s) := by
  induction xs generalizing fuel with
  | nil => exact absurd rfl hne
  | cons x xs ih =>
      obtain ⟨fuel, rfl⟩ : ∃ f, fuel = f + 1 := ⟨fuel - 1, by omega⟩
      have hx := h x (List.mem_cons_self ..)
      cases xs with
      | nil =>
          simp only [printElements] at hfuel ⊢
          rw [readElements?, hx fuel _ (by omega) (endsNumeral_cons rfl (by decide) s)]
          rfl
      | cons y ys =>
          simp only [printElements, List.length_append, List.length_cons] at hfuel
          simp only [printElements, List.append_assoc, List.cons_append]
          have hxs := ih (List.cons_ne_nil y ys) (fun z hz => h z (List.mem_cons_of_mem _ hz)) fuel (by omega)
          rw [readElements?, hx fuel _ (by omega) (endsNumeral_comma _)]
          simp only [Option.bind_eq_bind, Option.bind_some, skipGaps_cons (c := ',') rfl, hxs,
            Option.map_some]

theorem readMembers?_printMembers {d : Nat} {ms : List Member} (hne : ms ≠ [])
    (h : ∀ m ∈ ms, ReadsBack d m.2) (fuel : Nat) (hfuel : 2 * (printMembers ms).length + 1 ≤ fuel)
    (s : List Char) : readMembers? d fuel (printMembers ms ++ '\x7d' :: s) = some (ms, s) := by
  induction ms generalizing fuel with
  | nil => exact absurd rfl hne
  | cons m ms ih =>
      obtain ⟨k, v⟩ := m
      obtain ⟨fuel, rfl⟩ : ∃ f, fuel = f + 1 := ⟨fuel - 1, by omega⟩
      have hv : ReadsBack d v := h (k, v) (List.mem_cons_self ..)
      have hkey : ∀ t, skipGaps (quoted k ++ t) = quoted k ++ t := fun t => skipGaps_cons rfl _
      cases ms with
      | nil =>
          simp only [printMembers, List.length_append, List.length_cons] at hfuel
          simp only [printMembers, List.append_assoc, List.cons_append]
          rw [readMembers?, hkey, string?_quoted]
          simp only [Option.bind_eq_bind, Option.bind_some, colon?, skipGaps_cons (c := ':') rfl]
          rw [hv fuel _ (by omega) (endsNumeral_cons rfl (by decide) s)]
          rfl
      | cons m ms =>
          simp only [printMembers, List.length_append, List.length_cons] at hfuel
          simp only [printMembers, List.append_assoc, List.cons_append]
          have hms := ih (List.cons_ne_nil m ms) (fun n hn => h n (List.mem_cons_of_mem _ hn)) fuel (by omega)
          rw [readMembers?, hkey, string?_quoted]
          simp only [Option.bind_eq_bind, Option.bind_some, colon?, skipGaps_cons (c := ':') rfl]
          rw [hv fuel _ (by omega) (endsNumeral_comma _)]
          simp only [Option.bind_some, skipGaps_cons (c := ',') rfl, hms, Option.map_some]

theorem readsBack_array {d : Nat} {xs : List Json} (hp : ∀ x ∈ xs, Plain d x)
    (h : ∀ x ∈ xs, ReadsBack d x) : ReadsBack (d + 1) (.array xs) := by
  intro fuel s hfuel _
  rw [length_print_array] at hfuel
  obtain ⟨fuel, rfl⟩ : ∃ f, fuel = f + 1 := ⟨fuel - 1, by omega⟩
  rw [print_array]
  cases xs with
  | nil => rfl
  | cons x xs =>
      have hread := readElements?_printElements (List.cons_ne_nil x xs) h fuel (by omega) s
      obtain ⟨c, r, hc, hgap, hclose⟩ : ∃ c r, printElements (x :: xs) ++ ']' :: s = c :: r ∧
          isGap c = false ∧ c ≠ ']' := by
        obtain ⟨c, r, hc, hgap, hclose⟩ := (hp x (List.mem_cons_self ..)).head
        cases xs <;> exact ⟨c, _, by simp only [printElements, hc]; rfl, hgap, hclose⟩
      rw [hc] at hread ⊢
      rw [readValue?_array hgap hclose, hread, Option.map_some]

theorem readsBack_object {d : Nat} {ms : List Member} (h : ∀ m ∈ ms, ReadsBack d m.2) :
    ReadsBack (d + 1) (.object ms) := by
  intro fuel s hfuel _
  rw [length_print_object] at hfuel
  obtain ⟨fuel, rfl⟩ : ∃ f, fuel = f + 1 := ⟨fuel - 1, by omega⟩
  rw [print_object]
  cases ms with
  | nil => rfl
  | cons m ms =>
      have hread := readMembers?_printMembers (List.cons_ne_nil m ms) h fuel (by omega) s
      obtain ⟨r, hc⟩ : ∃ r, printMembers (m :: ms) ++ '\x7d' :: s = '\x22' :: r := by
        cases ms <;> exact ⟨_, rfl⟩
      rw [hc] at hread ⊢
      rw [readValue?_object, hread, Option.map_some]

theorem Plain.readsBack {d : Nat} {v : Json} (h : Plain d v) : ReadsBack d v := by
  induction h with
  | null => exact readsBack_null _
  | bool b => exact readsBack_bool _ b
  | integer h => exact readsBack_ofInt _ h
  | string s => exact readsBack_string _ s
  | array h ih => exact readsBack_array h ih
  | object h ih => exact readsBack_object ih

theorem parse?_print {v : Json} (h : Plain maxDepth v) : parse? v.print = some v := by
  have hread := h.readsBack (2 * v.print.length + 2) [] (by omega) (by intro c r e; cases e)
  rw [List.append_nil] at hread
  simp [parse?, hread, skipGaps]

end RecordSearch.Json

import RecordSearch.Json.Shape
import RecordSearch.Proofs.Json.RoundTrip
import RecordSearch.Proofs.Outcome

/-!
# Written structures read back

A value that has a shape is read from its compact form by the reader of that shape. An object that has the
fields of a structure is read if each of its values is.
-/

namespace RecordSearch.Json

open RecordSearch.Text

/-- The value is read from its compact form by the reader of the shape, given so much fuel, whatever follows
that ends a numeral. -/
def Shape.Reads (shape : Shape) (n : Nat) (v : Json) : Prop :=
  ∀ fuel, n ≤ fuel → ∀ s, EndsNumeral s → readShape fuel shape (v.print ++ s) = .ok (v, s)

theorem Shape.Reads.mono {shape : Shape} {n k : Nat} {v : Json} (h : shape.Reads n v) (hk : n ≤ k) :
    shape.Reads k v :=
  fun fuel hfuel => h fuel (Nat.le_trans hk hfuel)

/-! ## Values without parts -/

theorem toUInt64?_ofNat (n : UInt64) : (Number.integer n.toNat).toUInt64? = some n := by
  have hlt : (n.toNat : Int) < UInt64.size := Int.ofNat_lt.mpr n.toNat_lt_size
  rw [Number.toUInt64?, if_pos ⟨by omega, hlt⟩]
  simp

theorem skipGaps_ofNat (n : Nat) (s : List Char) :
    skipGaps (Decimal.ofNat n ++ s) = Decimal.ofNat n ++ s := by
  obtain ⟨c, r, hc, hd⟩ := Decimal.head_ofNat n
  rw [hc]
  exact skipGaps_cons (isGap_of_isDigit hd) _

-- Stated for any number, since the kernel must not compute with the bound of a given one.
theorem readNatural_of_number? {s rest : List Char} {n : Number} {m : UInt64}
    (h : number? s = some (.number n, rest)) (hn : n.toUInt64? = some m) :
    readNatural s = .ok (.number n, rest) := by
  simp only [readNatural, h, hn]

theorem readNatural_ofNat (n : UInt64) {s : List Char} (hs : EndsNumeral s) :
    readNatural (Decimal.ofNat n.toNat ++ s) = .ok (ofInt n.toNat, s) := by
  have hge : -0x8000000000000000 ≤ (n.toNat : Int) := by omega
  have hlt : (n.toNat : Int) < UInt64.size := Int.ofNat_lt.mpr n.toNat_lt_size
  exact readNatural_of_number? (number?_ofInt ⟨hge, hlt⟩ hs) (toUInt64?_ofNat n)

theorem skipGaps_quoted (t : String) (s : List Char) : skipGaps (quoted t ++ s) = quoted t ++ s :=
  skipGaps_cons rfl _

theorem reads_text (t : String) : Shape.text.Reads 1 (.string t) := by
  intro fuel hfuel s _
  obtain ⟨fuel, rfl⟩ : ∃ f, fuel = f + 1 := ⟨fuel - 1, by omega⟩
  change readText (skipGaps (quoted t ++ s)) = _
  rw [skipGaps_quoted, readText, string?_quoted]

theorem reads_bool (b : Bool) : Shape.bool.Reads 1 (.bool b) := by
  intro fuel hfuel s _
  obtain ⟨fuel, rfl⟩ : ∃ f, fuel = f + 1 := ⟨fuel - 1, by omega⟩
  cases b <;> rfl

theorem reads_natural (n : UInt64) : Shape.natural.Reads 1 (ofInt n.toNat) := by
  intro fuel hfuel s hs
  obtain ⟨fuel, rfl⟩ : ∃ f, fuel = f + 1 := ⟨fuel - 1, by omega⟩
  change readNatural (skipGaps (Decimal.ofNat n.toNat ++ s)) = _
  rw [skipGaps_ofNat, readNatural_ofNat n hs]

theorem reads_word {words : List String} {w : String} (h : w ∈ words) :
    (Shape.word words).Reads 1 (.string w) := by
  intro fuel hfuel s _
  obtain ⟨fuel, rfl⟩ : ∃ f, fuel = f + 1 := ⟨fuel - 1, by omega⟩
  have htext : readText (quoted w ++ s) = .ok (.string w, s) := by rw [readText, string?_quoted]
  change readWord words (skipGaps (quoted w ++ s)) = _
  rw [skipGaps_quoted]
  change (readText (quoted w ++ s) >>= readWord.known words) = _
  rw [htext]
  exact if_pos h

/-- What is optional is read as it is if it does not look like `null`. -/
theorem Shape.Reads.optional {shape : Shape} {n : Nat} {v : Json} (h : shape.Reads n v)
    (hv : ∃ c r, v.print = c :: r ∧ isGap c = false ∧ c ≠ 'n') : (Shape.optional shape).Reads (n + 1) v := by
  intro fuel hfuel s hs
  obtain ⟨fuel, rfl⟩ : ∃ f, fuel = f + 1 := ⟨fuel - 1, by omega⟩
  obtain ⟨c, r, hc, hgap, hn⟩ := hv
  have hread := h fuel (by omega) s hs
  rw [hc, List.cons_append] at hread ⊢
  rw [readShape, skipGaps_cons hgap]
  split
  · next e =>
    cases e
    exact absurd rfl hn
  · exact hread

/-! ## Structures -/

/-- Each member is a field, and its value is read by the reader of the shape of that field. -/
def ReadAll (fields : List (String × Bool × Shape)) (n : Nat) (ms : List Member) : Prop :=
  ∀ m ∈ ms, ∃ needed shape, fields.lookup m.1 = some (needed, shape) ∧ shape.Reads n m.2

theorem lookup_eq_none_of_nodup {found ms : List Member} {m : Member}
    (h : ((found ++ m :: ms).map (·.1)).Nodup) : found.lookup m.1 = none := by
  induction found with
  | nil => rfl
  | cons f found ih =>
      obtain ⟨hf, hrest⟩ := List.nodup_cons.mp h
      have hne : m.1 ≠ f.1 := by
        intro e
        have hmem : m.1 ∈ (found ++ m :: ms).map (·.1) := List.mem_map_of_mem (by simp)
        rw [e] at hmem
        exact hf hmem
      rw [List.lookup_cons, beq_eq_false_iff_ne.mpr hne]
      exact ih hrest

theorem readFields_printMembers {fields : List (String × Bool × Shape)} {n : Nat} (found : List Member)
    {ms : List Member} (hne : ms ≠ []) (h : ReadAll fields n ms) (hd : ((found ++ ms).map (·.1)).Nodup)
    (fuel : Nat) (hfuel : 2 * ms.length + n ≤ fuel) (s : List Char) :
    readFields fuel fields found (printMembers ms ++ '\x7d' :: s) = closeObject fields (found ++ ms) s := by
  induction ms generalizing found fuel with
  | nil => exact absurd rfl hne
  | cons m ms ih =>
      obtain ⟨name, v⟩ := m
      rw [List.length_cons] at hfuel
      obtain ⟨fuel, rfl⟩ : ∃ f, fuel = f + 2 := ⟨fuel - 2, by omega⟩
      obtain ⟨needed, shape, hfield, hreads⟩ := h (name, v) (List.mem_cons_self ..)
      have hfound := lookup_eq_none_of_nodup hd
      -- One member is read, up to what follows its value.
      have hmember : ∀ t, EndsNumeral t →
          readFields (fuel + 2) fields found (quoted name ++ ':' :: (v.print ++ t)) =
            next (fuel + 1) fields (found ++ [(name, v)]) t := by
        intro t ht
        have hvalue := hreads (fuel + 1) (by omega) t ht
        simp only [readFields, skipGaps_quoted, string?_quoted, hfield, hfound, colon?,
          skipGaps_cons (c := ':') rfl, Option.isSome_none]
        rw [if_neg Bool.false_ne_true, hvalue, ok_bind]
      cases ms with
      | nil =>
          simp only [printMembers, List.append_assoc, List.cons_append]
          rw [hmember _ (endsNumeral_cons rfl (by decide) s)]
          rfl
      | cons m ms =>
          have hrest := ih (found ++ [(name, v)]) (List.cons_ne_nil m ms)
            (fun k hk => h k (List.mem_cons_of_mem _ hk)) (by simpa using hd) fuel (by omega)
          simp only [printMembers, List.append_assoc, List.cons_append]
          rw [hmember _ (endsNumeral_comma _)]
          change readFields fuel fields (found ++ [(name, v)]) _ = _
          rw [hrest, List.append_assoc]
          rfl

/-- An object with members begins with the name of the first. -/
theorem print_object_of_ne_nil {ms : List Member} (hne : ms ≠ []) (s : List Char) :
    ∃ r, printMembers ms ++ '\x7d' :: s = '\x22' :: r := by
  obtain ⟨m, ns, rfl⟩ := List.exists_cons_of_ne_nil hne
  cases ns <;> exact ⟨_, rfl⟩

/-- A printed object with all the fields of a structure is read as it is. -/
theorem ReadAll.reads {fields : List (String × Bool × Shape)} {n : Nat} {ms : List Member}
    (h : ReadAll fields n ms) (hne : ms ≠ []) (hd : (ms.map (·.1)).Nodup)
    (hc : complete fields ms = true) :
    (Shape.struct fields).Reads (2 * ms.length + n + 1) (.object ms) := by
  intro fuel hfuel s _
  obtain ⟨fuel, rfl⟩ : ∃ f, fuel = f + 1 := ⟨fuel - 1, by omega⟩
  obtain ⟨r, hquote⟩ := print_object_of_ne_nil hne s
  have hfields := readFields_printMembers [] hne h hd fuel (by omega) s
  rw [List.nil_append, closeObject, if_pos hc, hquote] at hfields
  rw [print_object, hquote, readShape, skipGaps_cons rfl]
  exact hfields

/-! ## Whole texts -/

theorem length_le_printMembers (ms : List Member) : ms.length ≤ (printMembers ms).length := by
  induction ms with
  | nil => exact Nat.zero_le _
  | cons m ms ih =>
      cases ms with
      | nil => simp [printMembers, quoted]
      | cons n ns =>
          simp only [printMembers, List.length_append, List.length_cons] at ih ⊢
          omega

/-- A text that is a printed object with all the fields of a structure is read as it is. There is fuel enough
for fields that are small structures themselves. -/
theorem ReadAll.read_print {fields : List (String × Bool × Shape)} {n : Nat} {ms : List Member}
    (h : ReadAll fields n ms) (hne : ms ≠ []) (hd : (ms.map (·.1)).Nodup)
    (hc : complete fields ms = true) (hn : n ≤ 8) :
    (Shape.struct fields).read (print (.object ms)) = .ok (.object ms, []) := by
  have hlength := length_le_printMembers ms
  have hend : EndsNumeral [] := by
    intro c r e
    cases e
  have hread := h.reads hne hd hc (4 * (print (.object ms)).length + 4)
    (by rw [length_print_object]; omega) [] hend
  rwa [List.append_nil] at hread

theorem Shape.parse?_of_read {shape : Shape} {s : List Char} {v : Json}
    (h : shape.read s = .ok (v, [])) : shape.parse? s = some v := by
  simp only [Shape.parse?, h, skipGaps, List.dropWhile_nil, if_true]

end RecordSearch.Json

import RecordSearch.Proofs.Predicate.Typing
import RecordSearch.Proofs.Timestamp.RoundTrip

/-!
# Values that a field can hold

Coercion to a type gives the values that a field of the type can hold. It leaves these as they are and reads
them back from their texts, so it is a retraction onto them.
-/

namespace RecordSearch

open Text

namespace Text.Decimal

theorem isBlank_of_mem_ofInt {n : Int} {c : Char} (h : c ∈ ofInt n) : isBlank c = false := by
  have hnat : ∀ k, c ∈ ofNat k → isBlank c = false := by
    intro k hc
    exact isBlank_of_isDigit (List.all_eq_true.mp (all_isDigit_ofNat k) c hc)
  cases n with
  | ofNat n => exact hnat n h
  | negSucc n =>
      rcases List.mem_cons.mp h with rfl | h
      · rfl
      · exact hnat (n + 1) h

theorem int64?_ofInt (n : Int64) : int64? (ofInt n.toInt) = some n := by
  have hrange : -0x8000000000000000 ≤ n.toInt ∧ n.toInt < 0x8000000000000000 :=
    ⟨Int64.le_toInt n, Int64.toInt_lt n⟩
  rw [int64?, integer?_ofInt, Option.bind_some, if_pos hrange, Int64.ofInt_toInt]

end Text.Decimal

namespace Value

variable {value typed : Value} {type : FieldType}

theorem HasType.coerce_self (h : value.HasType type) : value.coerce type = .ok value := by
  unfold HasType at h
  split at h
  · rfl
  · rfl
  · rfl
  · exact if_pos h
  · rfl
  · exact h.elim

/-- Blanks around a text do not count for some types, but there are none around these texts. -/
theorem HasType.coerce_display (h : value.HasType type) :
    (Value.text value.display).coerce type = .ok value := by
  unfold HasType at h
  split at h
  · rfl
  · next n =>
      have hread : Decimal.int64? (trim (Decimal.ofInt n.toInt)) = some n := by
        rw [trim_eq_self fun c hc => Decimal.isBlank_of_mem_ofInt hc]
        exact Decimal.int64?_ofInt n
      simp only [coerce, display, String.toList_ofList, hread]
  · next b => cases b <;> rfl
  · exact if_pos h
  · next t => simp only [coerce, display, Timestamp.render, String.toList_ofList, Timestamp.parse?_print]
  · exact h.elim

/-- What a value is coerced to has the type, is coerced to itself, and so is its text. There is nothing that
an object or a list would be coerced to. -/
theorem coerce_retraction (value : Value) (type : FieldType) :
    (∀ typed, value.coerce type = .ok typed →
      typed.HasType type ∧ typed.coerce type = .ok typed ∧
        (Value.text typed.display).coerce type = .ok typed) ∧
    (∀ fields, value.coerce (.object fields) = .error (.notScalar (.object fields))) ∧
    ∀ element, value.coerce (.list element) = .error (.notScalar (.list element)) := by
  refine ⟨fun typed h => ?_, fun fields => ?_, fun element => ?_⟩
  · have htype : typed.HasType type := hasType_of_coerce h
    exact ⟨htype, htype.coerce_self, htype.coerce_display⟩
  · cases value <;> rfl
  · cases value <;> rfl

/-- The least integer, written with a zero too many, and a point in time before our era, both between blanks. -/
theorem coerce_retraction_blanks :
    let early : Timestamp := { date := { year := -44, month := 3, day := 15 }
                               hour := 12, minute := 0, second := 0, nanosecond := 500000000 }
    (Value.text " -09223372036854775808 ").coerce .integer = .ok (.integer Int64.minValue) ∧
      (Value.text (Value.integer Int64.minValue).display).coerce .integer = .ok (.integer Int64.minValue) ∧
      (Value.text "\t-0044-03-15T12:00:00.50").coerce .timestamp = .ok (.timestamp early) ∧
      (Value.timestamp early).display = "-0044-03-15T12:00:00.5" ∧
      (Value.text (Value.timestamp early).display).coerce .timestamp = .ok (.timestamp early) := by
  intro early
  have hleast : (Value.text " -09223372036854775808 ").coerce .integer = .ok (.integer Int64.minValue) := by
    rfl
  have hearly : (Value.text "\t-0044-03-15T12:00:00.50").coerce .timestamp = .ok (.timestamp early) := by
    rfl
  obtain ⟨_, _, hinteger⟩ := (coerce_retraction _ _).1 _ hleast
  obtain ⟨_, _, htimestamp⟩ := (coerce_retraction _ _).1 _ hearly
  exact ⟨hleast, hinteger, hearly, by decide, htimestamp⟩

end Value

end RecordSearch

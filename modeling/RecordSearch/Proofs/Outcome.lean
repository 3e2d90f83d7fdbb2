/-!
# Outcomes

When a computation that may fail ends with a given result or error.
-/

namespace RecordSearch

variable {ε ε' α β : Type} {x : Except ε α} {f : α → Except ε β} {a : α} {b : β} {e' : ε'}

theorem ok_bind (a : α) (f : α → Except ε β) : Except.ok a >>= f = f a := rfl

theorem bind_eq_ok_iff : x >>= f = .ok b ↔ ∃ a, x = .ok a ∧ f a = .ok b := by
  cases x <;> simp [bind, Except.bind]

theorem map_eq_ok_iff {g : α → β} : x.map g = .ok b ↔ ∃ a, x = .ok a ∧ g a = b := by
  cases x <;> simp [Except.map]

theorem mapError_eq_ok_iff {g : ε → ε'} : x.mapError g = .ok a ↔ x = .ok a := by
  cases x with
  | error e =>
      change Except.error (g e) = .ok a ↔ _
      simp
  | ok b =>
      change Except.ok b = .ok a ↔ _
      simp

theorem mapError_eq_error_iff {g : ε → ε'} : x.mapError g = .error e' ↔ ∃ e, x = .error e ∧ g e = e' := by
  cases x with
  | error e =>
      change Except.error (g e) = .error e' ↔ _
      simp
  | ok a =>
      change Except.ok a = .error e' ↔ _
      simp

/-- Both computations fail, or both give the same. -/
def Same (x y : Except ε α) : Prop := ∀ a, x = .ok a ↔ y = .ok a

section

variable {y : Except ε α} {g : α → Except ε β}

theorem Same.refl (x : Except ε α) : Same x x := fun _ => Iff.rfl

theorem Same.of_errors {e e' : ε} : Same (.error e : Except ε α) (.error e') := by
  intro a
  constructor <;> rintro ⟨⟩

theorem Same.bind (h : Same x y) (hf : ∀ a, x = .ok a → Same (f a) (g a)) : Same (x >>= f) (y >>= g) := by
  intro b
  rw [bind_eq_ok_iff, bind_eq_ok_iff]
  exact exists_congr fun a => ⟨fun ⟨hx, ha⟩ => ⟨(h a).mp hx, (hf a hx b).mp ha⟩,
    fun ⟨hy, ha⟩ => ⟨(h a).mpr hy, (hf a ((h a).mpr hy) b).mpr ha⟩⟩

theorem Same.map (h : Same x y) (k : α → β) : Same (x.map k) (y.map k) := by
  intro b
  rw [map_eq_ok_iff, map_eq_ok_iff]
  exact exists_congr fun a => and_congr_left fun _ => h a

end

end RecordSearch

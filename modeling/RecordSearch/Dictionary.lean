/-!
# Dictionaries

Finite maps as lists of entries, one for each key. Main statements: after an insertion the new key has
the new value (`get?_insert_self`) and every other key what it had before (`get?_insert_of_ne`).
-/

namespace RecordSearch

structure Dictionary (κ α : Type) where
  entries : List (κ × α) := []

namespace Dictionary

variable {κ α : Type} [DecidableEq κ]

def get? (d : Dictionary κ α) (key : κ) : Option α := d.entries.lookup key

/-- Sets the value of a key, in place of an earlier one. -/
def insert (d : Dictionary κ α) (key : κ) (value : α) : Dictionary κ α :=
  ⟨d.entries.filter (·.1 ≠ key) ++ [(key, value)]⟩

def erase (d : Dictionary κ α) (key : κ) : Dictionary κ α := ⟨d.entries.filter (·.1 ≠ key)⟩

def keys (d : Dictionary κ α) : List κ := d.entries.map (·.1)

theorem lookup_append (xs ys : List (κ × α)) (key : κ) :
    (xs ++ ys).lookup key = (xs.lookup key).or (ys.lookup key) := by
  induction xs with
  | nil => rfl
  | cons x xs ih =>
      obtain ⟨first, value⟩ := x
      by_cases h : key = first
      · simp [h]
      · simp [List.lookup_cons, beq_eq_false_iff_ne.mpr h, ih]

theorem lookup_filter_self (xs : List (κ × α)) (key : κ) :
    (xs.filter (·.1 ≠ key)).lookup key = none := by
  induction xs with
  | nil => rfl
  | cons x xs ih =>
      obtain ⟨first, value⟩ := x
      by_cases h : first = key
      · simpa [h] using ih
      · simpa [h, List.lookup_cons, beq_eq_false_iff_ne.mpr (Ne.symm h)] using ih

theorem lookup_filter_of_ne (xs : List (κ × α)) {key k : κ} (hk : k ≠ key) :
    (xs.filter (·.1 ≠ key)).lookup k = xs.lookup k := by
  induction xs with
  | nil => rfl
  | cons x xs ih =>
      obtain ⟨first, value⟩ := x
      by_cases h : first = key
      · have hx : k ≠ first := by rw [h]; exact hk
        simpa [h, List.lookup_cons, beq_eq_false_iff_ne.mpr hx, beq_eq_false_iff_ne.mpr hk] using ih
      · by_cases e : k = first
        · simp [h, e]
        · simpa [h, List.lookup_cons, beq_eq_false_iff_ne.mpr e] using ih

theorem get?_insert_self (d : Dictionary κ α) (key : κ) (value : α) :
    (d.insert key value).get? key = some value := by
  rw [get?, insert, lookup_append, lookup_filter_self]
  simp

theorem get?_insert_of_ne (d : Dictionary κ α) {key k : κ} (value : α) (h : k ≠ key) :
    (d.insert key value).get? k = d.get? k := by
  rw [get?, insert, lookup_append, lookup_filter_of_ne _ h]
  simp [List.lookup_cons, beq_eq_false_iff_ne.mpr h, get?]

theorem get?_erase_self (d : Dictionary κ α) (key : κ) : (d.erase key).get? key = none :=
  lookup_filter_self d.entries key

theorem get?_erase_of_ne (d : Dictionary κ α) {key k : κ} (h : k ≠ key) :
    (d.erase key).get? k = d.get? k :=
  lookup_filter_of_ne d.entries h

end Dictionary

end RecordSearch

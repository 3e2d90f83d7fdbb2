import RecordSearch.Proofs.Json.RoundTrip

/-!
# Characters of written values

The compact form of a value has no control characters, since those in strings are escaped. So it has no
line breaks and can stand on a line of its own.
-/

namespace RecordSearch.Json

open RecordSearch.Text

/-- The text has no control character below U+0020, hence no line break. -/
def Visible (s : List Char) : Prop := ∀ c ∈ s, 0x20 ≤ c.toNat

instance (s : List Char) : Decidable (Visible s) :=
  inferInstanceAs (Decidable (∀ c ∈ s, 0x20 ≤ c.toNat))

theorem visible_nil : Visible [] := nofun

theorem Visible.append {s t : List Char} (hs : Visible s) (ht : Visible t) : Visible (s ++ t) := by
  intro c hc
  rcases List.mem_append.mp hc with hc | hc
  · exact hs c hc
  · exact ht c hc

theorem Visible.cons {c : Char} {s : List Char} (hc : 0x20 ≤ c.toNat) (hs : Visible s) :
    Visible (c :: s) := by
  intro c' hc'
  rcases List.mem_cons.mp hc' with rfl | hc'
  · exact hc
  · exact hs c' hc'

theorem visible_hexDigit {n : Nat} (h : n < 16) : 0x20 ≤ (hexDigit n).toNat := by
  have hall : ∀ n < 16, 0x20 ≤ (hexDigit n).toNat := by decide
  exact hall n h

theorem visible_escaped (c : Char) : Visible (escaped c) := by
  have hn : c.toNat / 16 < 16 ∨ ¬ c.toNat < 0x20 := by omega
  unfold escaped
  split
  case h_8 =>
    split
    · next hc =>
      have hhigh := visible_hexDigit (n := c.toNat / 16) (by omega)
      have hlow := visible_hexDigit (n := c.toNat % 16) (by omega)
      simp [Visible, hhigh, hlow]
    · next hc => simpa [Visible] using hc
  all_goals simp [Visible]

theorem visible_quoted (s : String) : Visible (quoted s) := by
  refine .cons (by decide) (.append (fun c hc => ?_) (.cons (by decide) visible_nil))
  obtain ⟨d, _, hd⟩ := List.mem_flatMap.mp hc
  exact visible_escaped d c hd

theorem visible_ofInt (n : Int) : Visible (Decimal.ofInt n) := by
  have hnat : ∀ n, Visible (Decimal.ofNat n) := by
    intro n c hc
    have hd := List.all_eq_true.mp (Decimal.all_isDigit_ofNat n) c hc
    simp only [Decimal.isDigit, Bool.and_eq_true, decide_eq_true_eq] at hd
    omega
  cases n with
  | ofNat n => exact hnat n
  | negSucc n => exact .cons (by decide) (hnat _)

theorem visible_printElements {xs : List Json} (h : ∀ x ∈ xs, Visible x.print) :
    Visible (printElements xs) := by
  induction xs with
  | nil => exact visible_nil
  | cons x xs ih =>
      have hx := h x (List.mem_cons_self ..)
      have hxs := ih fun y hy => h y (List.mem_cons_of_mem _ hy)
      cases xs with
      | nil => exact hx
      | cons y ys => exact hx.append (.cons (by decide) hxs)

theorem visible_printMembers {ms : List Member} (h : ∀ m ∈ ms, Visible m.2.print) :
    Visible (printMembers ms) := by
  induction ms with
  | nil => exact visible_nil
  | cons m ms ih =>
      obtain ⟨k, v⟩ := m
      have hv : Visible v.print := h (k, v) (List.mem_cons_self ..)
      have hms := ih fun n hn => h n (List.mem_cons_of_mem _ hn)
      cases ms with
      | nil => exact (visible_quoted k).append (.cons (by decide) hv)
      | cons n ns =>
          exact (visible_quoted k).append (.cons (by decide) (hv.append (.cons (by decide) hms)))

theorem Plain.visible_print {d : Nat} {v : Json} (h : Plain d v) : Visible v.print := by
  induction h with
  | null =>
      change Visible ['n', 'u', 'l', 'l']
      simp [Visible]
  | bool b =>
      cases b with
      | false =>
          change Visible ['f', 'a', 'l', 's', 'e']
          simp [Visible]
      | true =>
          change Visible ['t', 'r', 'u', 'e']
          simp [Visible]
  | integer h => exact visible_ofInt _
  | string s => exact visible_quoted s
  | array h ih => exact .cons (by decide) (.append (visible_printElements ih) (.cons (by decide) visible_nil))
  | object h ih => exact .cons (by decide) (.append (visible_printMembers ih) (.cons (by decide) visible_nil))

end RecordSearch.Json

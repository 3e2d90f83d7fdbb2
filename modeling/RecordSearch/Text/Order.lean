/-!
# Order of texts

Texts are ordered character by character, by code point; of two texts of which one begins the other,
the shorter is the smaller. Their encodings in UTF-8 are ordered the same way byte by byte.
-/

namespace RecordSearch.Text

/-- The order of two texts by code point. -/
def order : List Char → List Char → Ordering
  | [], [] => .eq
  | [], _ :: _ => .lt
  | _ :: _, [] => .gt
  | a :: s, b :: t =>
      if a.toNat < b.toNat then .lt else if b.toNat < a.toNat then .gt else order s t

theorem order_self (s : List Char) : order s s = .eq := by
  induction s with
  | nil => rfl
  | cons c s ih => simp [order, ih]

theorem order_append_left (p s t : List Char) : order (p ++ s) (p ++ t) = order s t := by
  induction p with
  | nil => rfl
  | cons c p ih => simp [order, ih]

def atMost (s t : String) : Bool := order s.toList t.toList != .gt

def ascending (ts : List String) : List String := ts.mergeSort atMost

end RecordSearch.Text

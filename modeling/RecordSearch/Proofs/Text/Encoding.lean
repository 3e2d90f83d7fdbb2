import Mathlib
import RecordSearch.Proofs.Text

/-!
# The order of texts by their bytes

Texts are in the same order by code point as by the bytes of their encodings in UTF-8.
-/

namespace RecordSearch.Text

/-- The order of two texts by the bytes of their encodings. -/
def byteOrder (s t : String) : Ordering := compare s.toUTF8.data.toList t.toUTF8.data.toList

variable {c d : Char} {s t : List UInt8}

theorem toUTF8_eq (s : String) : s.toUTF8.data.toList = s.toList.flatMap String.utf8EncodeChar := by
  conv_lhs => rw [← String.ofList_toList (s := s)]
  rw [String.toUTF8_eq_toByteArray, String.toByteArray_ofList, List.utf8Encode, List.toList_data_toByteArray]

theorem compare_cons (a b : UInt8) (s t : List UInt8) :
    compare (a :: s) (b :: t) = (compare a b).then (compare s t) := by
  simp only [List.compare_eq_compareLex, List.compareLex_cons_cons]

theorem compare_ofNat_cons {a b : Nat} (ha : a < 256) (hb : b < 256) (s t : List UInt8) :
    compare (UInt8.ofNat a :: s) (UInt8.ofNat b :: t) = (compare a b).then (compare s t) := by
  rw [compare_cons, UInt8.compare_eq_toNat_compare_toNat, UInt8.toNat_ofNat_of_lt' ha, UInt8.toNat_ofNat_of_lt' hb]

theorem compare_append_left (p s t : List UInt8) : compare (p ++ s) (p ++ t) = compare s t := by
  induction p with
  | nil => rfl
  | cons a p ih =>
      rw [List.cons_append, List.cons_append, compare_cons, ih, UInt8.compare_eq_toNat_compare_toNat,
        Nat.compare_eq_eq.mpr rfl, Ordering.eq_then]

/-- The encoding of a smaller character comes first, whatever follows. -/
theorem compare_encodeChar_lt (h : c.toNat < d.toNat) (s t : List UInt8) :
    compare (String.utf8EncodeChar c ++ s) (String.utf8EncodeChar d ++ t) = .lt := by
  have hd : d.val.toNat < 0x110000 := by
    have hvalid := d.valid
    rw [UInt32.isValidChar, Nat.isValidChar] at hvalid
    omega
  change c.val.toNat < d.val.toNat at h
  unfold String.utf8EncodeChar
  generalize c.val.toNat = m at h
  generalize d.val.toNat = n at h hd
  -- The bytes are the digits of the code point to the base 64.
  have hsecond (k : Nat) : k / 4096 = k / 64 / 64 := (Nat.div_div_eq_div_mul k 64 64).symm
  have hthird (k : Nat) : k / 262144 = k / 64 / 64 / 64 := by
    rw [Nat.div_div_eq_div_mul, Nat.div_div_eq_div_mul]
  dsimp only
  split_ifs <;>
    simp (disch := omega) only [List.cons_append, List.nil_append, compare_ofNat_cons, Ordering.then_eq_lt,
      Nat.compare_eq_lt, Nat.compare_eq_eq, hsecond, hthird] <;>
    omega

theorem encodeChar_ne_nil (c : Char) : String.utf8EncodeChar c ≠ [] := by
  unfold String.utf8EncodeChar
  dsimp only
  split_ifs <;> exact List.cons_ne_nil _ _

theorem compare_encode (s t : List Char) :
    compare (s.flatMap String.utf8EncodeChar) (t.flatMap String.utf8EncodeChar) = order s t := by
  fun_induction order s t with
  | case1 => rfl
  | case2 c t =>
      obtain ⟨b, bs, hc⟩ := List.exists_cons_of_ne_nil (encodeChar_ne_nil c)
      rw [List.flatMap_cons, hc]
      rfl
  | case3 c s =>
      obtain ⟨b, bs, hc⟩ := List.exists_cons_of_ne_nil (encodeChar_ne_nil c)
      rw [List.flatMap_cons, hc]
      rfl
  | case4 c s d t hlt => exact compare_encodeChar_lt hlt _ _
  | case5 c s d t _ hlt =>
      have hswap : compare ((c :: s).flatMap String.utf8EncodeChar) ((d :: t).flatMap String.utf8EncodeChar) =
          (compare ((d :: t).flatMap String.utf8EncodeChar) ((c :: s).flatMap String.utf8EncodeChar)).swap :=
        Std.OrientedCmp.eq_swap
      rw [hswap, List.flatMap_cons, List.flatMap_cons, compare_encodeChar_lt hlt]
      rfl
  | case6 c s d t hle hge ih =>
      obtain rfl : c = d := Char.toNat_inj.mp (by omega)
      rw [List.flatMap_cons, List.flatMap_cons, compare_append_left, ih]

theorem byteOrder_eq (s t : String) : byteOrder s t = order s.toList t.toList := by
  rw [byteOrder, toUTF8_eq, toUTF8_eq, compare_encode]

end RecordSearch.Text

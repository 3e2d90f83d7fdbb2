import Mathlib.Data.List.Forall2
import RecordSearch.Field.Basic
import RecordSearch.Json.Basic

/-!
# Members in another order

When a value is another one with its members in another order and with members that its type does not know,
and what stays the same then: for every name that the type knows, the values under it.
-/

namespace RecordSearch

open Json (Member)

namespace FieldType

/-- The type of a member of an object. What the object's type does not know is taken as a text. -/
def member (type : FieldType) (name : String) : FieldType :=
  match type with
  | .object fields => (FieldTable.find? fields name).getD .text
  | _ => .text

/-- The type of an element of an array, which may be that of an object written without names. -/
def element (type : FieldType) (i : Nat) : FieldType :=
  match type with
  | .list element => element
  | .object fields => (fields[i]?.map (·.2)).getD .text
  | _ => .text

/-- An object of the type may have members of the name, which tell nothing. -/
def Ignores (name : String) : FieldType → Prop
  | .object fields => FieldTable.find? fields name = none
  | _ => False

end FieldType

namespace Json

/-- The second value is the first one with the members of its objects, at any depth, in another order, and
with further members of names that the types of these objects do not know. -/
inductive Rearranged : FieldType → Json → Json → Prop
  | same (type : FieldType) (v : Json) : Rearranged type v v
  | array {type : FieldType} {xs ys : List Json} (length : xs.length = ys.length)
      (elements : ∀ i, ∀ p ∈ (xs.zip ys)[i]?, Rearranged (type.element i) p.1 p.2) :
      Rearranged type (.array xs) (.array ys)
  | object {type : FieldType} {ms kept unknown ns : List Member} (names : ms.map (·.1) = kept.map (·.1))
      (values : ∀ p ∈ ms.zip kept, Rearranged (type.member p.1.1) p.1.2 p.2.2)
      (ignored : ∀ m ∈ unknown, type.Ignores m.1) (order : (kept ++ unknown).Perm ns) :
      Rearranged type (.object ms) (.object ns)

/-! ## Values by name -/

/-- The values of the members of a name. -/
def valuesOf (name : String) (ms : List Member) : List Json := (ms.filter (·.1 = name)).map (·.2)

variable {name tag : String} {ms ns kept unknown : List Member} {v w : Json} {xs ys : List Json}

@[simp] theorem valuesOf_nil (name : String) : valuesOf name [] = [] := rfl

theorem valuesOf_cons_self (name : String) (v : Json) (ms : List Member) :
    valuesOf name ((name, v) :: ms) = v :: valuesOf name ms := by
  simp [valuesOf]

theorem valuesOf_cons_of_ne (h : tag ≠ name) (v : Json) (ms : List Member) :
    valuesOf name ((tag, v) :: ms) = valuesOf name ms := by
  simp [valuesOf, h]

theorem valuesOf_append (name : String) (ms ns : List Member) :
    valuesOf name (ms ++ ns) = valuesOf name ms ++ valuesOf name ns := by
  simp [valuesOf]

theorem valuesOf_perm (h : ms.Perm ns) (name : String) : (valuesOf name ms).Perm (valuesOf name ns) :=
  (h.filter _).map _

theorem valuesOf_eq_nil (h : ∀ m ∈ ms, m.1 ≠ name) : valuesOf name ms = [] := by
  have hnone : ms.filter (·.1 = name) = [] := by simpa using h
  rw [valuesOf, hnone, List.map_nil]

theorem lookup_eq_head? (name : String) (ms : List Member) : ms.lookup name = (valuesOf name ms).head? := by
  induction ms with
  | nil => rfl
  | cons m ms ih =>
      obtain ⟨k, v⟩ := m
      by_cases hk : k = name
      · subst hk
        rw [valuesOf_cons_self, List.lookup_cons_self, List.head?_cons]
      · have hne : (name == k) = false := beq_false_of_ne (Ne.symm hk)
        rw [valuesOf_cons_of_ne hk, List.lookup_cons, hne, ih]

/-- The members without those of a name. -/
def without (tag : String) (ms : List Member) : List Member := ms.filter (·.1 ≠ tag)

theorem without_cons_self (tag : String) (v : Json) (ms : List Member) :
    without tag ((tag, v) :: ms) = without tag ms :=
  List.filter_cons_of_neg (by simp)

theorem without_cons_of_ne (h : name ≠ tag) (v : Json) (ms : List Member) :
    without tag ((name, v) :: ms) = (name, v) :: without tag ms :=
  List.filter_cons_of_pos (by simpa using h)

theorem without_of_valuesOf (h : valuesOf tag ms = []) : without tag ms = ms := by
  induction ms with
  | nil => rfl
  | cons m ms ih =>
      obtain ⟨k, v⟩ := m
      by_cases hk : k = tag
      · rw [hk, valuesOf_cons_self] at h
        cases h
      · rw [valuesOf_cons_of_ne hk] at h
        rw [without_cons_of_ne hk, ih h]

theorem valuesOf_without (h : name ≠ tag) (ms : List Member) :
    valuesOf name (without tag ms) = valuesOf name ms := by
  induction ms with
  | nil => rfl
  | cons m ms ih =>
      obtain ⟨k, v⟩ := m
      by_cases hk : k = tag
      · rw [hk, without_cons_self, ih, valuesOf_cons_of_ne h.symm]
      · rw [without_cons_of_ne hk]
        by_cases hn : k = name
        · rw [hn, valuesOf_cons_self, valuesOf_cons_self, ih]
        · rw [valuesOf_cons_of_ne hn, valuesOf_cons_of_ne hn, ih]

/-! ## What a rearrangement keeps -/

/-- Both lists are empty, or have one element each, and these are related, or both have more. -/
inductive Paired (r : Json → Json → Prop) : List Json → List Json → Prop
  | none : Paired r [] []
  | one {v w : Json} (h : r v w) : Paired r [v] [w]
  | many {xs ys : List Json} (hx : 2 ≤ xs.length) (hy : 2 ≤ ys.length) : Paired r xs ys

theorem Paired.of_forall₂ {r : Json → Json → Prop} {zs : List Json} (h : List.Forall₂ r xs zs)
    (hp : zs.Perm ys) : Paired r xs ys := by
  cases h with
  | nil =>
      obtain rfl := hp.nil_eq
      exact .none
  | cons h hs =>
      cases hs with
      | nil =>
          obtain rfl := List.singleton_perm.mp hp
          exact .one h
      | cons _ hs =>
          have hlength := hp.length_eq
          simp only [List.length_cons] at hlength
          exact .many (by simp) (by omega)

/-- For every field of the table the values under its name are paired. -/
def Agree (fields : FieldTable) (ms ns : List Member) : Prop :=
  ∀ name type, FieldTable.find? fields name = some type →
    Paired (Rearranged type) (valuesOf name ms) (valuesOf name ns)

theorem forall₂_valuesOf {r : String → Json → Json → Prop}
    (h : List.Forall₂ (fun m n => m.1 = n.1 ∧ r m.1 m.2 n.2) ms ns) (name : String) :
    List.Forall₂ (r name) (valuesOf name ms) (valuesOf name ns) := by
  induction h with
  | nil => exact .nil
  | @cons m n ms ns hm _ ih =>
      obtain ⟨k, v⟩ := m
      obtain ⟨k', w⟩ := n
      obtain ⟨rfl, hr⟩ := hm
      by_cases hk : k = name
      · subst hk
        rw [valuesOf_cons_self, valuesOf_cons_self]
        exact .cons hr ih
      · rwa [valuesOf_cons_of_ne hk, valuesOf_cons_of_ne hk]

/-- The members of the lists have the same names, and values that one is the other rearranged. -/
abbrev Kept (type : FieldType) : List Member → List Member → Prop :=
  List.Forall₂ fun m n => m.1 = n.1 ∧ Rearranged (type.member m.1) m.2 n.2

theorem Kept.names {type : FieldType} (h : Kept type ms kept) : ms.map (·.1) = kept.map (·.1) := by
  induction h with
  | nil => rfl
  | cons h _ ih => rw [List.map_cons, List.map_cons, h.1, ih]

/-- Lists with equal names are lists of pairs of equal names. -/
theorem forall₂_of_map_eq {α β : Type} {f : α → String} {g : β → String} {xs : List α} {ys : List β}
    (h : xs.map f = ys.map g) : List.Forall₂ (fun x y => f x = g y) xs ys := by
  have heq : List.Forall₂ (· = ·) (xs.map f) (ys.map g) := h ▸ List.forall₂_same.mpr fun _ _ => rfl
  rwa [List.forall₂_map_left_iff, List.forall₂_map_right_iff] at heq

variable {fields : FieldTable}

theorem Kept.agree (h : Kept (.object fields) ms kept)
    (ignored : ∀ m ∈ unknown, FieldType.Ignores m.1 (.object fields)) (order : (kept ++ unknown).Perm ns) :
    Agree fields ms ns := by
  intro name type hname
  have hvalues := forall₂_valuesOf (r := fun k => Rearranged (FieldType.member (.object fields) k)) h name
  have htype : FieldType.member (.object fields) name = type := by
    rw [FieldType.member, hname, Option.getD_some]
  have hunknown : valuesOf name unknown = [] := valuesOf_eq_nil fun m hm e => by
    have hnone : FieldTable.find? fields m.1 = none := ignored m hm
    rw [e, hname] at hnone
    cases hnone
  have hperm := valuesOf_perm order name
  rw [valuesOf_append, hunknown, List.append_nil] at hperm
  rw [htype] at hvalues
  exact .of_forall₂ hvalues hperm

theorem Kept.agree_kept (h : Kept (.object fields) ms kept) : Agree fields ms kept := by
  have horder : (kept ++ []).Perm kept := by rw [List.append_nil]
  exact h.agree (by rintro _ ⟨⟩) horder

/-- An object is rearranged member by member, and then in its order. -/
theorem rearranged_object_iff {type : FieldType} : Rearranged type (.object ms) (.object ns) ↔
    ∃ kept unknown, Kept type ms kept ∧ (∀ m ∈ unknown, type.Ignores m.1) ∧ (kept ++ unknown).Perm ns := by
  constructor
  · intro h
    cases h with
    | same =>
        refine ⟨ms, [], List.forall₂_same.mpr fun m _ => ⟨rfl, .same _ _⟩, by rintro _ ⟨⟩, ?_⟩
        rw [List.append_nil]
    | @object _ _ kept unknown _ names values ignored order =>
        have hnames := forall₂_of_map_eq names
        have hkept : Kept type ms kept :=
          List.forall₂_iff_zip.mpr ⟨hnames.length_eq, fun hm => ⟨List.forall₂_zip hnames hm, values _ hm⟩⟩
        exact ⟨kept, unknown, hkept, ignored, order⟩
  · rintro ⟨kept, unknown, hkept, ignored, order⟩
    exact .object hkept.names (fun p hp => (List.forall₂_zip hkept hp).2) ignored order

theorem Rearranged.agree (h : Rearranged (.object fields) (.object ms) (.object ns)) : Agree fields ms ns := by
  obtain ⟨kept, unknown, hkept, ignored, order⟩ := rearranged_object_iff.mp h
  exact hkept.agree ignored order

/-- An object of a type without fields gets no further members. -/
theorem Rearranged.exists_kept_perm {type : FieldType} (h : Rearranged type (.object ms) (.object ns))
    (hi : ∀ name, ¬ type.Ignores name) : ∃ kept, Kept type ms kept ∧ kept.Perm ns := by
  obtain ⟨kept, unknown, hkept, ignored, order⟩ := rearranged_object_iff.mp h
  cases unknown with
  | nil => exact ⟨kept, hkept, by rwa [List.append_nil] at order⟩
  | cons m _ => exact absurd (ignored m List.mem_cons_self) (hi m.1)

theorem find?_getElem (hd : (fields.map (·.1)).Nodup) {i : Nat} (hi : i < fields.length) :
    FieldTable.find? fields fields[i].1 = some fields[i].2 := by
  induction fields generalizing i with
  | nil => cases hi
  | cons f fields ih =>
      obtain ⟨name, type⟩ := f
      obtain ⟨hn, hd⟩ := List.nodup_cons.mp hd
      cases i with
      | zero => exact List.lookup_cons_self
      | succ i =>
          have hi' : i < fields.length := Nat.lt_of_succ_lt_succ hi
          have hmem := List.mem_map_of_mem (f := (·.1)) (List.getElem_mem hi')
          have hne : fields[i].1 ≠ name := fun e => hn (e ▸ hmem)
          rw [List.getElem_cons_succ, FieldTable.find?, List.lookup_cons, beq_false_of_ne hne]
          exact ih hd hi'

/-- An object that is written without names agrees with itself rearranged. -/
theorem agree_zip (hd : (fields.map (·.1)).Nodup) (length : xs.length = ys.length)
    (elements : ∀ i, ∀ p ∈ (xs.zip ys)[i]?, Rearranged (FieldType.element (.object fields) i) p.1 p.2) :
    Agree fields ((fields.map (·.1)).zip xs) ((fields.map (·.1)).zip ys) := by
  have hkept : Kept (.object fields) ((fields.map (·.1)).zip xs) ((fields.map (·.1)).zip ys) := by
    refine List.forall₂_iff_get.mpr ⟨by simp [length], fun i hx hy => ?_⟩
    rw [List.length_zip, List.length_map, Nat.lt_min] at hx hy
    have hpair : (xs.zip ys)[i]? = some (xs[i], ys[i]) := by
      rw [List.getElem?_eq_getElem (by rw [List.length_zip]; omega), List.getElem_zip]
    have hvalue := elements i _ hpair
    rw [FieldType.element, List.getElem?_eq_getElem hx.1] at hvalue
    simp only [List.get_eq_getElem, List.getElem_zip, List.getElem_map, true_and, FieldType.member,
      find?_getElem hd hx.1]
    exact hvalue
  exact hkept.agree_kept

theorem find?_of_mem (hd : (fields.map (·.1)).Nodup) {f : String × FieldType} (h : f ∈ fields) :
    FieldTable.find? fields f.1 = some f.2 := by
  obtain ⟨i, hi, rfl⟩ := List.mem_iff_getElem.mp h
  exact find?_getElem hd hi

theorem Agree.of_subset {part : FieldTable} (h : Agree fields ms ns) (hd : (fields.map (·.1)).Nodup)
    (hs : part ⊆ fields) : Agree part ms ns := by
  intro name type hname
  obtain ⟨before, after, rfl, _⟩ := List.lookup_eq_some_iff.mp hname
  exact h name type (find?_of_mem hd (hs (List.mem_append_right before List.mem_cons_self)))

theorem Agree.without {type : FieldType} (h : Agree ((tag, type) :: fields) ms ns)
    (hn : FieldTable.find? fields tag = none) : Agree fields (without tag ms) (without tag ns) := by
  intro name type' hname
  have hne : name ≠ tag := by
    rintro rfl
    rw [hn] at hname
    cases hname
  rw [valuesOf_without hne, valuesOf_without hne]
  refine h name type' ?_
  rw [FieldTable.find?, List.lookup_cons, beq_false_of_ne hne]
  exact hname

end Json

end RecordSearch

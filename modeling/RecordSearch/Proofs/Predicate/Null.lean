import RecordSearch.Proofs.Json.Members
import RecordSearch.Proofs.Predicate.Fields

/-!
# Nulls and absent members

Predicates do not tell a member that holds `null` from one that is not there: what they say of a document
is what they say of it without such members. They are false where all their fields are absent or `null`.
-/

namespace RecordSearch

namespace Json

mutual

/-- The document without the members that hold `null`, at any depth. The elements of arrays are no members
and stay. -/
def withoutNulls : Json → Json
  | .array xs => .array (elementsWithoutNulls xs)
  | .object ms => .object (membersWithoutNulls ms)
  | v => v

def elementsWithoutNulls : List Json → List Json
  | [] => []
  | x :: xs => x.withoutNulls :: elementsWithoutNulls xs

def membersWithoutNulls : List Member → List Member
  | [] => []
  | (name, v) :: ms =>
      if v.isNull then membersWithoutNulls ms else (name, v.withoutNulls) :: membersWithoutNulls ms

end

theorem elementsWithoutNulls_eq_map (xs : List Json) : elementsWithoutNulls xs = xs.map withoutNulls := by
  induction xs with
  | nil => rfl
  | cons x xs ih => rw [elementsWithoutNulls, ih, List.map_cons]

theorem isNull_withoutNulls (v : Json) : v.withoutNulls.isNull = v.isNull := by
  cases v <;> rfl

theorem text?_withoutNulls (v : Json) : v.withoutNulls.text? = v.text? := by
  cases v <;> rfl

theorem elements?_withoutNulls (v : Json) :
    v.withoutNulls.elements? = v.elements?.map (List.map withoutNulls) := by
  cases v with
  | array xs => rw [withoutNulls, elements?, elements?, elementsWithoutNulls_eq_map, Option.map_some]
  | _ => rfl

/-! ## The value at the end of a path -/

theorem findMember_withoutNulls (name : String) (ms : List Member) :
    findMember name (membersWithoutNulls ms) = (findMember name ms).map withoutNulls := by
  induction ms with
  | nil => rfl
  | cons m ms ih =>
      obtain ⟨k, v⟩ := m
      cases hv : v.isNull with
      | true => simp [membersWithoutNulls, findMember, hv, ih]
      | false =>
          by_cases hk : k = name
          · simp [membersWithoutNulls, findMember, hv, hk, isNull_withoutNulls]
          · simp [membersWithoutNulls, findMember, hv, hk, ih]

theorem member?_withoutNulls (name : String) (v : Json) :
    v.withoutNulls.member? name = (v.member? name).map withoutNulls := by
  cases v with
  | object ms => exact findMember_withoutNulls name ms
  | _ => rfl

theorem lookup_withoutNulls (path : List String) (doc : Json) :
    doc.withoutNulls.lookup path = (doc.lookup path).map withoutNulls := by
  induction path generalizing doc with
  | nil =>
      rw [lookup, lookup, isNull_withoutNulls]
      split <;> rfl
  | cons name path ih =>
      rw [lookup, lookup, member?_withoutNulls]
      cases doc.member? name with
      | none => rfl
      | some v => exact ih v

/-- What reads nothing that nulls change reads the same at the end of a path. -/
theorem bind_lookup_withoutNulls {α : Type} {read : Json → Option α}
    (h : ∀ v : Json, read v.withoutNulls = read v) (path : List String) (doc : Json) :
    (doc.withoutNulls.lookup path).bind read = (doc.lookup path).bind read := by
  rw [lookup_withoutNulls]
  cases doc.lookup path with
  | none => rfl
  | some v => exact h v

theorem any_lookup_withoutNulls {test : Json → Bool} (h : ∀ v : Json, test v.withoutNulls = test v)
    (path : List String) (doc : Json) :
    (doc.withoutNulls.lookup path).any test = (doc.lookup path).any test := by
  rw [lookup_withoutNulls]
  cases doc.lookup path with
  | none => rfl
  | some v => exact h v

theorem any_elements_withoutNulls {test : Json → Bool} (h : ∀ v : Json, test v.withoutNulls = test v)
    (path : List String) (doc : Json) :
    ((doc.withoutNulls.lookup path).bind elements?).any (·.any test) =
      ((doc.lookup path).bind elements?).any (·.any test) := by
  rw [lookup_withoutNulls]
  cases doc.lookup path with
  | none => rfl
  | some v =>
      rw [Option.map_some, Option.bind_some, Option.bind_some, elements?_withoutNulls]
      cases v.elements? with
      | none => rfl
      | some xs => simp [Function.comp_def, h]

end Json

/-! ## Predicates -/

namespace Value

theorem isStoredAs_withoutNulls (value : Value) (v : Json) :
    value.isStoredAs v.withoutNulls = value.isStoredAs v := by
  cases v <;> rfl

theorem orderOf?_withoutNulls (value : Value) (v : Json) :
    value.orderOf? v.withoutNulls = value.orderOf? v := by
  cases v <;> rfl

end Value

namespace Predicate

open Json

variable {p : Predicate} {doc : Json}

theorem eval_withoutNulls (p : Predicate) (doc : Json) : p.eval doc.withoutNulls = p.eval doc := by
  induction p with
  | equals field value => exact any_lookup_withoutNulls value.isStoredAs_withoutNulls _ _
  | like field pattern ignoreCase => rw [eval, eval, bind_lookup_withoutNulls text?_withoutNulls]
  | atLeast field value | atMost field value =>
      rw [eval, eval, bind_lookup_withoutNulls value.orderOf?_withoutNulls]
  | includes field value => exact any_elements_withoutNulls value.isStoredAs_withoutNulls _ _
  | anyRelated collection member value =>
      exact any_elements_withoutNulls
        (fun item => any_lookup_withoutNulls value.isStoredAs_withoutNulls member.path item) _ _
  | and left right ihl ihr | or left right ihl ihr => rw [eval, eval, ihl, ihr]

theorem eval_of_lookup_eq_none (h : ∀ field ∈ p.fields, doc.lookup field.path = none) :
    p.eval doc = false := by
  induction p with
  | and left right ihl ihr | or left right ihl ihr =>
      simp only [fields, List.mem_append] at h
      rw [eval, ihl fun field hf => h field (.inl hf), ihr fun field hf => h field (.inr hf)]
      rfl
  | _ =>
      simp only [fields, List.forall_mem_singleton] at h
      rw [eval, h]
      rfl

/-- Members that hold `null` can be left out of a document without any predicate noticing, and a predicate
whose fields lead to nothing, or to `null`, does not hold. -/
theorem null_counts_as_absent (p : Predicate) (doc : Json) :
    p.eval doc.withoutNulls = p.eval doc ∧
      ((∀ field ∈ p.fields, ∀ v, doc.LeadsTo field.path v → v = .null) → p.eval doc = false) := by
  refine ⟨p.eval_withoutNulls doc, fun h => eval_of_lookup_eq_none fun field hf => ?_⟩
  rw [Option.eq_none_iff_forall_ne_some]
  intro v hv
  obtain ⟨hl, hn⟩ := leadsTo_of_lookup hv
  exact hn (h field hf v hl)

theorem null_counts_as_absent_nested :
    let doc : Json := .object [("department", .null), ("role", .object [("name", .null)]),
      ("members", .array [.null, .object [("id", .null), ("name", .string "al")]])]
    let p : Predicate := .or (.atMost ⟨["department"], .text⟩ (.text "zzz"))
      (.or (.equals ⟨["role", "name"], .text⟩ (.text "x")) (.includes ⟨["tags"], .list .text⟩ (.text "")))
    doc.withoutNulls = .object [("role", .object []),
        ("members", .array [.null, .object [("name", .string "al")]])] ∧
      (∀ field ∈ p.fields, ∀ v, doc.LeadsTo field.path v → v = .null) ∧
      p.eval doc = false ∧ p.eval doc.withoutNulls = false := by
  intro doc p
  have hnulls : ∀ field ∈ p.fields, ∀ v, doc.LeadsTo field.path v → v = .null := by
    simp [p, doc, fields]
  obtain ⟨hsame, habsent⟩ := null_counts_as_absent p doc
  exact ⟨by rfl, hnulls, habsent hnulls, hsame.trans (habsent hnulls)⟩

end Predicate

end RecordSearch

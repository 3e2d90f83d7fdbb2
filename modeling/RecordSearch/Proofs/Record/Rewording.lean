import Mathlib.Data.List.Perm.Basic
import RecordSearch.Proofs.Json.Assembly
import RecordSearch.Proofs.Record.MemberOrder

/-!
# Texts of records with their members in any order

When a text is another one with the texts of its members in another order and with texts of further members
that its type does not know, and why such texts hold the same record.
-/

namespace RecordSearch

open Json (Member MemberText Denotes Rearranged Kept skipGaps arrayText objectText)

/-- The second text is the first one, a value in which so many levels may be opened, with the members of its
objects, at any depth, in another order, and with further members of names that the types of these objects do
not know and of values that can be read. -/
inductive Reworded : Nat → FieldType → List Char → List Char → Prop
  | same {d : Nat} {s : List Char} {v : Json} (type : FieldType) (h : Denotes d s v) : Reworded d type s s
  | gaps {d : Nat} {type : FieldType} {s t before after before' after' : List Char} (h : Reworded d type s t)
      (hs : skipGaps before = [] ∧ skipGaps after = []) (ht : skipGaps before' = [] ∧ skipGaps after' = []) :
      Reworded d type (before ++ s ++ after) (before' ++ t ++ after')
  | array {d : Nat} {type : FieldType} {xs ys : List (List Char)} (length : xs.length = ys.length)
      (elements : ∀ i, ∀ p ∈ (xs.zip ys)[i]?, Reworded d (type.element i) p.1 p.2) :
      Reworded (d + 1) type (arrayText xs) (arrayText ys)
  | object {d : Nat} {type : FieldType} {space space' : List Char} {ms kept unknown ns : List MemberText}
      (names : ms.map (·.name) = kept.map (·.name))
      (values : ∀ p ∈ ms.zip kept, Reworded d (type.member p.1.name) p.1.value p.2.value)
      (ignored : ∀ m ∈ unknown, type.Ignores m.name ∧ ∃ v, Denotes d m.value v)
      (order : (kept ++ unknown).Perm ns) (hs : skipGaps space = []) (ht : skipGaps space' = []) :
      Reworded (d + 1) type (objectText space ms) (objectText space' ns)

namespace Reworded

variable {d : Nat} {type : FieldType} {s t space space' : List Char} {ms ns kept unknown : List MemberText}
  {xs ys : List (List Char)}

/-- The texts are of values of which one is the other rearranged. -/
def Explained (d : Nat) (type : FieldType) (s t : List Char) : Prop :=
  ∃ v w, Denotes d s v ∧ Denotes d t w ∧ Rearranged type v w

theorem explained_array (length : xs.length = ys.length)
    (elements : ∀ i, ∀ p ∈ (xs.zip ys)[i]?, Explained d (type.element i) p.1 p.2) :
    Explained (d + 1) type (arrayText xs) (arrayText ys) := by
  have hexplained : ∀ i : Fin xs.length, Explained d (type.element i) xs[i] ys[i] := fun i =>
    elements i (xs[i], ys[i]) (by simp [List.getElem?_zip_eq_some])
  choose v w hv hw hvw using hexplained
  have hvs : List.Forall₂ (Denotes d) xs (List.ofFn v) :=
    List.forall₂_iff_get.mpr ⟨by simp, fun i hi _ => by simpa using hv ⟨i, hi⟩⟩
  have hws : List.Forall₂ (Denotes d) ys (List.ofFn w) :=
    List.forall₂_iff_get.mpr ⟨by simp [length], fun i hi _ => by simpa using hw ⟨i, length ▸ hi⟩⟩
  refine ⟨_, _, .array hvs, .array hws, .array (by simp) fun i p hp => ?_⟩
  obtain ⟨hp₁, hp₂⟩ := List.getElem?_zip_eq_some.mp hp
  rw [List.getElem?_ofFn] at hp₁ hp₂
  split at hp₁
  · next hi =>
    rw [dif_pos hi] at hp₂
    obtain ⟨v', w'⟩ := p
    cases hp₁
    cases hp₂
    exact hvw ⟨i, hi⟩
  · cases hp₁

theorem exists_kept (h : List.Forall₂ (fun m n => m.name = n.name ∧
      Explained d (type.member m.name) m.value n.value) ms kept) : ∃ vs ws,
    List.Forall₂ (MemberText.Denotes d) ms vs ∧ List.Forall₂ (MemberText.Denotes d) kept ws ∧ Kept type vs ws := by
  induction h with
  | nil => exact ⟨[], [], .nil, .nil, .nil⟩
  | cons h _ ih =>
      obtain ⟨hname, v, w, hv, hw, hvw⟩ := h
      obtain ⟨vs, ws, hvs, hws, hkept⟩ := ih
      exact ⟨(_, v) :: vs, (_, w) :: ws, .cons ⟨rfl, hv⟩ hvs, .cons ⟨rfl, hw⟩ hws, .cons ⟨hname, hvw⟩ hkept⟩

theorem exists_ignored (h : ∀ m ∈ ms, type.Ignores m.name ∧ ∃ v, Denotes d m.value v) :
    ∃ vs, List.Forall₂ (MemberText.Denotes d) ms vs ∧ ∀ v ∈ vs, type.Ignores v.1 := by
  induction ms with
  | nil => exact ⟨[], .nil, by rintro _ ⟨⟩⟩
  | cons m ms ih =>
      obtain ⟨hm, v, hv⟩ := h m List.mem_cons_self
      obtain ⟨vs, hvs, hignored⟩ := ih fun n hn => h n (List.mem_cons_of_mem m hn)
      exact ⟨(m.name, v) :: vs, .cons ⟨rfl, hv⟩ hvs, List.forall_mem_cons.mpr ⟨hm, hignored⟩⟩

theorem explained_object (names : ms.map (·.name) = kept.map (·.name))
    (values : ∀ p ∈ ms.zip kept, Explained d (type.member p.1.name) p.1.value p.2.value)
    (ignored : ∀ m ∈ unknown, type.Ignores m.name ∧ ∃ v, Denotes d m.value v)
    (order : (kept ++ unknown).Perm ns) (hs : skipGaps space = []) (ht : skipGaps space' = []) :
    Explained (d + 1) type (objectText space ms) (objectText space' ns) := by
  have hnames := Json.forall₂_of_map_eq names
  obtain ⟨vs, ws, hvs, hws, hkept⟩ := exists_kept (List.forall₂_iff_zip.mpr
    ⟨hnames.length_eq, fun hm => ⟨List.forall₂_zip hnames hm, values _ hm⟩⟩)
  obtain ⟨us, hus, hignored⟩ := exists_ignored ignored
  obtain ⟨ns', hns, hperm⟩ := List.perm_comp_forall₂ order.symm (List.rel_append hws hus)
  exact ⟨_, _, .object hs hvs, .object ht hns,
    Json.rearranged_object_iff.mpr ⟨ws, us, hkept, hignored, hperm.symm⟩⟩

theorem explained (h : Reworded d type s t) : Explained d type s t := by
  induction h with
  | same type h => exact ⟨_, _, h, h, .same _ _⟩
  | gaps _ hs ht ih =>
      obtain ⟨v, w, hv, hw, hvw⟩ := ih
      exact ⟨v, w, hv.gaps hs.1 hs.2, hw.gaps ht.1 ht.2, hvw⟩
  | array length _ ih => exact explained_array length ih
  | object names _ ignored order hs ht ih => exact explained_object names ih ignored order hs ht

/-- The text of an object with its members from last to first, and a further one behind them. -/
def turned (members : List MemberText) (name : String) : List Char :=
  objectText [] (members.reverse ++ [.written name (arrayText [])])

theorem to_turned (h : List.Forall₂ (fun m n => m.name = n.name ∧
      Reworded (d + 1) (type.member m.name) m.value n.value) ms kept) {name : String} (hi : type.Ignores name) :
    Reworded (d + 2) type (objectText [] ms) (turned kept name) := by
  have hnames : ms.map (·.name) = kept.map (·.name) := by
    induction h with
    | nil => rfl
    | cons h _ ih => rw [List.map_cons, List.map_cons, h.1, ih]
  have hignored : ∀ m ∈ [MemberText.written name (arrayText [])],
      type.Ignores m.name ∧ ∃ v, Denotes (d + 1) m.value v := by
    intro m hm
    rw [List.mem_singleton.mp hm]
    exact ⟨hi, _, .array .nil⟩
  have horder := (List.reverse_perm kept).symm.append_right [MemberText.written name (arrayText [])]
  exact .object hnames (fun p hp => (List.forall₂_zip h hp).2) hignored horder rfl rfl

end Reworded

namespace Record

/-- An object's text, and the text that is it with its members in another order, at any depth, the tags
among them, and with members that the record does not know, hold the same record, or both hold none. -/
theorem parse_reworded {s t : List Char} {ms : List Member} (hs : Json.parse? s = some (.object ms))
    (h : Reworded Json.maxDepth (.object (fieldsOf ms)) s t) (r : Record) : parse s = .ok r ↔ parse t = .ok r := by
  obtain ⟨v, w, hv, hw, hvw⟩ := h.explained
  obtain rfl := (Json.parse?_eq_some_iff.mp hs).inj hv
  have ht : Json.parse? t = some w := Json.parse?_eq_some_iff.mpr hw
  obtain ⟨ns, rfl⟩ : ∃ ns, w = .object ns := by cases hvw <;> exact ⟨_, rfl⟩
  exact parse_rearranged hs ht hvw r

/-- A draft whose members stand from last to first, those of its user and of that one's role too, each time
with a further one. -/
theorem parse_reworded_turned :
    let midnight : Timestamp := .midnight { year := 2024, month := 5, day := 1 }
    let al : User := ⟨"al", "Al", "", none, ⟨1, "r", "", false⟩⟩
    let draft : Application := .draft ⟨7, "A-1", al, .draft, none, midnight⟩
    let role := Reworded.turned [.ofMember ("id", .ofInt 1), .ofMember ("name", .string "r"),
      .ofMember ("description", .string ""), .ofMember ("singleUser", .bool false)] "level"
    let user := Reworded.turned [.ofMember ("username", .string "al"), .ofMember ("name", .string "Al"),
      .ofMember ("department", .string ""), .written "role" role] "nick"
    let application := Reworded.turned [.ofMember ("entity", .string "application"),
      .ofMember ("variant", .string "draft"), .ofMember ("id", .ofInt 7), .ofMember ("applicationId", .string "A-1"),
      .written "user" user, .ofMember ("status", .string "DRAFT"),
      .ofMember ("lastUpdated", timestampJson midnight)] "finalComment"
    parse application = .ok (.application draft) := by
  intro midnight al draft role user application
  let stored := Record.application draft
  have hs : Json.parse? stored.print = some stored.toJson := Json.parse?_print (stored.plain.mono (by decide))
  have hsame : ∀ {d : Nat} {type : FieldType} {m : Member}, Json.Plain d m.2 →
      (MemberText.ofMember m).name = (MemberText.ofMember m).name ∧
        Reworded d type (MemberText.ofMember m).value (MemberText.ofMember m).value :=
    fun h => ⟨rfl, .same _ h.denotes⟩
  have hrole : Reworded (123 + 2) (.object roleFields) al.role.toJson.print role := by
    rw [Role.toJson, ← Json.objectText_ofMember]
    refine Reworded.to_turned ?_ rfl
    exact .cons (hsame (.integer (by decide))) (.cons (hsame (.string _)) (.cons (hsame (.string _))
      (.cons (hsame (.bool _)) .nil)))
  have huser : Reworded (124 + 2) (.object userFields) al.toJson.print user := by
    rw [User.toJson, ← Json.objectText_ofMember]
    refine Reworded.to_turned ?_ rfl
    exact .cons (hsame (.string _)) (.cons (hsame (.string _)) (.cons (hsame (.string _)) (.cons ⟨rfl, hrole⟩ .nil)))
  have hdraft : Reworded (125 + 2) (.object (("entity", .text) :: ("variant", .text) :: draftFields))
      stored.toJson.print application := by
    rw [Record.toJson, ← Json.objectText_ofMember]
    refine Reworded.to_turned ?_ rfl
    exact .cons (hsame (.string _)) (.cons (hsame (.string _)) (.cons (hsame (.integer (by decide)))
      (.cons (hsame (.string _)) (.cons ⟨rfl, huser⟩ (.cons (hsame (.string _)) (.cons (hsame (.string _)) .nil))))))
  exact (parse_reworded hs hdraft stored).mp stored.parse_print

end Record

end RecordSearch

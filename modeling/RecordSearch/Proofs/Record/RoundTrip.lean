import RecordSearch.Proofs.Json.RoundTrip
import RecordSearch.Proofs.Outcome
import RecordSearch.Proofs.Record.Shape
import RecordSearch.Proofs.Timestamp.RoundTrip
import RecordSearch.Record.Decoder

/-!
# Written records read back

A record is read from its stored form as that record.
-/

namespace RecordSearch

open Content

theorem Json.Number.toInt64?_toInt (n : Int64) : toInt64? (.integer n.toInt) = some n := by
  have h : -0x8000000000000000 ≤ n.toInt ∧ n.toInt < 0x8000000000000000 :=
    ⟨Int64.le_toInt n, Int64.toInt_lt n⟩
  rw [toInt64?, if_pos h, Int64.ofInt_toInt]

/-! ## Fields of a stored object -/

/-- Every slot takes what the fields hold under its name. -/
def Slot.Fit (slots : List Slot) (fields : List (String × Content)) : Prop :=
  ∀ f ∈ fields, f.2 ≠ .missing → ∀ s ∈ slots, s.name = f.1 → s.check f.2.toJson = .ok ()

namespace Slot

variable {slots : List Slot} {fields more : List (String × Content)}

theorem Fit.append (h : Fit slots fields) (hm : Fit slots more) : Fit slots (fields ++ more) := by
  intro f hf
  rcases List.mem_append.mp hf with hf | hf
  · exact h f hf
  · exact hm f hf

theorem Fit.of_disjoint (h : ∀ name ∈ fields.map (·.1), name ∉ slots.map (·.name)) : Fit slots fields := by
  intro f hf _ s hs e
  exact absurd (List.mem_map.mpr ⟨s, hs, e⟩) (h f.1 (List.mem_map_of_mem hf))

/-- The slots are for the fields, in the same order, and take what these hold. -/
def Aligned : List Slot → List (String × Content) → Prop
  | [], [] => True
  | s :: slots, (name, c) :: fields =>
      s.name = name ∧ (c ≠ .missing → s.check c.toJson = .ok ()) ∧ Aligned slots fields
  | _, _ => False

theorem Aligned.names (h : Aligned slots fields) : slots.map (·.name) = fields.map (·.1) := by
  fun_induction Aligned slots fields with
  | case1 => rfl
  | case2 s slots name c fields ih => rw [List.map_cons, List.map_cons, h.1, ih h.2.2]
  | case3 => exact h.elim

theorem Fit.of_aligned (hd : (fields.map (·.1)).Nodup) (h : Aligned slots fields) : Fit slots fields := by
  fun_induction Aligned slots fields with
  | case1 => intro f hf; cases hf
  | case2 s slots name c fields ih =>
      obtain ⟨hname, hcheck, hrest⟩ := h
      obtain ⟨hn, hd⟩ := List.nodup_cons.mp hd
      intro f hf hc s' hs' e
      rcases List.mem_cons.mp hf with rfl | hf
      · rcases List.mem_cons.mp hs' with rfl | hs'
        · exact hcheck hc
        · have hmem := List.mem_map_of_mem (f := (·.name)) hs'
          rw [hrest.names, e] at hmem
          exact absurd hmem hn
      · rcases List.mem_cons.mp hs' with rfl | hs'
        · have hmem := List.mem_map_of_mem (f := (·.1)) hf
          rw [← e, hname] at hmem
          exact absurd hmem hn
        · exact ih hd hrest f hf hc s' hs' e
  | case3 => exact h.elim

theorem scan_membersOf {seen : List String} (hd : (fields.map (·.1)).Nodup)
    (hseen : ∀ name ∈ fields.map (·.1), name ∉ seen) (h : Fit slots fields) :
    scan slots seen (membersOf fields) = .ok () := by
  induction fields generalizing seen with
  | nil => rfl
  | cons f fields ih =>
      obtain ⟨name, c⟩ := f
      obtain ⟨hn, hrest⟩ := List.nodup_cons.mp hd
      have hfit : Fit slots fields := fun f hf => h f (List.mem_cons_of_mem _ hf)
      have hskip : ∀ n ∈ fields.map (·.1), n ∉ seen := fun n hn' => hseen n (List.mem_cons_of_mem _ hn')
      by_cases hc : c = .missing
      · subst hc
        exact ih hrest hskip hfit
      · rw [membersOf_cons hc, scan]
        split
        · exact ih hrest hskip hfit
        · next s hs =>
          have hname := List.find?_some hs
          rw [if_neg (hseen name (List.mem_cons_self ..)),
            h (name, c) (List.mem_cons_self ..) hc s (List.mem_of_find?_eq_some hs) (by simpa using hname)]
          refine ih hrest (fun n hn' hmem => ?_) hfit
          rcases List.mem_cons.mp hmem with rfl | hmem
          · exact hn hn'
          · exact hskip n hn' hmem

theorem check_slot {α : Type} {name : String} {decode : Decoder α} {v : Json} {a : α}
    (h : decode v = .ok a) : (slot name decode).check v = .ok () := by
  simp only [slot, h]
  rfl

end Slot

namespace Fields

variable {slots : List Slot} {fields : List (String × Content)} {α : Type} {decode : Decoder α}

theorem stored?_scalar (v : Value) : stored? (.scalar v) = some (scalar v).toJson := rfl

theorem stored?_object : stored? (.object fields) = some (object fields).toJson := rfl

theorem stored?_list (cs : List Content) : stored? (.list cs) = some (list cs).toJson := rfl

def stored (fields : List (String × Content)) : Fields := ⟨membersOf fields, .missingField⟩

theorem ofJson_object (hd : (fields.map (·.1)).Nodup) (h : Slot.Fit slots fields) :
    ofJson slots (object fields).toJson = .ok (stored fields) := by
  rw [toJson_object, ofJson, Slot.scan_membersOf hd (fun _ _ => List.not_mem_nil) h]
  rfl

theorem required_stored (hd : (fields.map (·.1)).Nodup) (name : String) (decode : Decoder α) :
    (stored fields).required name decode =
      ((fields.lookup name).bind stored?).elim (.error (.missingField name)) decode := by
  rw [required, stored, lookup_membersOf hd]
  cases (fields.lookup name).bind stored? <;> rfl

theorem withDefault_stored (hd : (fields.map (·.1)).Nodup) (name : String) (decode : Decoder α) (a : α) :
    (stored fields).withDefault name decode a =
      ((fields.lookup name).bind stored?).elim (.ok a) decode := by
  rw [withDefault, stored, lookup_membersOf hd]
  cases (fields.lookup name).bind stored? <;> rfl

/-! Slots for some of the fields of an object. -/

variable {before after : List (String × Content)}

theorem ofMembers_between (hd : ((before ++ (fields ++ after)).map (·.1)).Nodup)
    (h : Slot.Aligned slots fields) :
    ofMembers slots (membersOf (before ++ (fields ++ after))) =
      .ok (stored (before ++ (fields ++ after))) := by
  have hd' := hd
  simp only [List.map_append, List.nodup_append] at hd'
  obtain ⟨_, ⟨hfields, _, hafter⟩, hbefore⟩ := hd'
  refine ofJson_object hd (.append (.of_disjoint fun name hn hs => ?_)
    (.append (.of_aligned hfields h) (.of_disjoint fun name hn hs => ?_)))
  · rw [h.names] at hs
    exact hbefore _ hn _ (List.mem_append_left _ hs) rfl
  · rw [h.names] at hs
    exact hafter _ hs _ hn rfl

theorem lookup_between (hd : ((before ++ (fields ++ after)).map (·.1)).Nodup)
    (h : Slot.Aligned slots fields) {name : String} (hn : name ∈ slots.map (·.name)) :
    (before ++ (fields ++ after)).lookup name = fields.lookup name := by
  simp only [List.map_append, List.nodup_append] at hd
  obtain ⟨_, _, hbefore⟩ := hd
  rw [h.names] at hn
  have hnone : before.lookup name = none := by
    rw [List.lookup_eq_none_iff]
    intro f hf
    have hne : name ≠ f.1 := fun e =>
      hbefore _ (List.mem_map_of_mem hf) _ (List.mem_append_left _ hn) e.symm
    exact bne_iff_ne.mpr hne
  obtain ⟨c, hc⟩ : ∃ c, fields.lookup name = some c := by
    rw [← Option.isSome_iff_exists, List.lookup_isSome_iff]
    obtain ⟨f, hf, e⟩ := List.mem_map.mp hn
    exact ⟨f, hf, by simp [← e]⟩
  rw [List.lookup_append, hnone, List.lookup_append, hc]
  rfl

theorem required_between (hd : ((before ++ (fields ++ after)).map (·.1)).Nodup)
    (h : Slot.Aligned slots fields) {name : String} (hn : name ∈ slots.map (·.name)) (decode : Decoder α) :
    (stored (before ++ (fields ++ after))).required name decode =
      ((fields.lookup name).bind stored?).elim (.error (.missingField name)) decode := by
  rw [required_stored hd, lookup_between hd h hn]

theorem withDefault_between (hd : ((before ++ (fields ++ after)).map (·.1)).Nodup)
    (h : Slot.Aligned slots fields) {name : String} (hn : name ∈ slots.map (·.name)) (decode : Decoder α)
    (a : α) :
    (stored (before ++ (fields ++ after))).withDefault name decode a =
      ((fields.lookup name).bind stored?).elim (.ok a) decode := by
  rw [withDefault_stored hd, lookup_between hd h hn]

end Fields

namespace Decoder

variable {α : Type} {decode : Decoder α} {content : α → Content}

theorem optional_toJson (h : ∀ a, decode (content a).toJson = .ok a) (hn : ∀ a, content a ≠ .missing)
    (a : α) : Decoder.optional decode (content a).toJson = .ok (some a) := by
  unfold Decoder.optional
  split
  · next e => exact absurd (toJson_eq_null_iff.mp e) (hn a)
  · rw [h a]
    rfl

/-- An optional field is read as what it holds, or as missing. -/
theorem elim_optional (h : ∀ a, decode (content a).toJson = .ok a) (hn : ∀ a, content a ≠ .missing)
    (o : Option α) :
    (stored? (Content.optional content o)).elim (.ok none) (Decoder.optional decode) = .ok o := by
  cases o with
  | none => rfl
  | some a =>
      rw [Content.optional, stored?_of_ne (hn a)]
      exact optional_toJson h hn a

theorem check_optional (h : ∀ a, decode (content a).toJson = .ok a) (hn : ∀ a, content a ≠ .missing)
    {o : Option α} (name : String) (ho : Content.optional content o ≠ .missing) :
    (slot name (Decoder.optional decode)).check (Content.optional content o).toJson = .ok () := by
  cases o with
  | none => exact absurd rfl ho
  | some a => exact Slot.check_slot (optional_toJson h hn a)

theorem list_toJson (h : ∀ a, decode (content a).toJson = .ok a) (as : List α) :
    Decoder.list decode (Content.list (as.map content)).toJson = .ok as := by
  rw [toJson_list, Decoder.list]
  induction as with
  | nil => rfl
  | cons a as ih =>
      rw [List.map_cons, List.map_cons, List.mapM_cons, h a, ih]
      rfl

theorem text_toJson (s : String) : text (Content.scalar (.text s)).toJson = .ok s := rfl

theorem bool_toJson (b : Bool) : bool (Content.scalar (.boolean b)).toJson = .ok b := rfl

theorem int64_toJson (n : Int64) : int64 (Content.scalar (.integer n)).toJson = .ok n := by
  simp only [toJson_scalar, Value.toJson, int64Json, Json.ofInt, int64, Json.Number.toInt64?_toInt]

theorem timestamp_toJson (t : Timestamp) : timestamp (Content.scalar (.timestamp t)).toJson = .ok t := by
  simp [toJson_scalar, Value.toJson, timestampJson, timestamp, Timestamp.render, Timestamp.parse?_print]

theorem status_toJson (s : ApplicationStatus) : status (Content.scalar (.enum s.name)).toJson = .ok s := by
  cases s <;> rfl

end Decoder

/-! ## The parts of a record -/

open Decoder Slot

theorem Account.names_nodup (a : Account) : (a.contents.map (·.1)).Nodup := by
  simp [contents]

theorem Account.slots_aligned (a : Account) : Slot.Aligned slots a.contents :=
  ⟨rfl, fun _ => check_slot (text_toJson _), rfl, fun _ => check_slot (text_toJson _), rfl,
    fun _ => check_slot (bool_toJson _), trivial⟩

theorem Account.decode_toJson (a : Account) : decode (Content.object a.contents).toJson = .ok a := by
  have hd := a.names_nodup
  rw [decode, Fields.ofJson_object hd (.of_aligned hd a.slots_aligned)]
  simp only [ok_bind, Fields.required_stored hd, Fields.withDefault_stored hd]
  simp [contents, List.lookup_cons, Fields.stored?_scalar, text_toJson, bool_toJson, ok_bind]

theorem Role.names_nodup (r : Role) : (r.contents.map (·.1)).Nodup := by
  simp [contents]

theorem Role.slots_aligned (r : Role) : Slot.Aligned slots r.contents :=
  ⟨rfl, fun _ => check_slot (int64_toJson _), rfl, fun _ => check_slot (text_toJson _), rfl,
    fun _ => check_slot (text_toJson _), rfl, fun _ => check_slot (bool_toJson _), trivial⟩

theorem Role.decode_toJson (r : Role) : decode (Content.object r.contents).toJson = .ok r := by
  have hd := r.names_nodup
  rw [decode, Fields.ofJson_object hd (.of_aligned hd r.slots_aligned)]
  simp only [ok_bind, Fields.required_stored hd, Fields.withDefault_stored hd]
  simp [contents, List.lookup_cons, Fields.stored?_scalar, text_toJson, bool_toJson, int64_toJson, ok_bind]

theorem User.names_nodup (u : User) : (u.contents.map (·.1)).Nodup := by
  simp [contents]

theorem User.slots_aligned (u : User) : Slot.Aligned slots u.contents :=
  ⟨rfl, fun _ => check_slot (text_toJson _), rfl, fun _ => check_slot (text_toJson _), rfl,
    fun _ => check_slot (text_toJson _), rfl,
    check_optional Account.decode_toJson (fun _ => nofun) _, rfl,
    fun _ => check_slot (Role.decode_toJson _), trivial⟩

theorem User.decode_toJson (u : User) : decode (Content.object u.contents).toJson = .ok u := by
  have hd := u.names_nodup
  have haccount := elim_optional Account.decode_toJson (fun _ => nofun) u.account
  rw [decode, Fields.ofJson_object hd (.of_aligned hd u.slots_aligned)]
  simp only [ok_bind, Fields.required_stored hd, Fields.withDefault_stored hd]
  simp [contents, List.lookup_cons, Fields.stored?_scalar, Fields.stored?_object, text_toJson,
    Role.decode_toJson, haccount, ok_bind]

theorem CommitteeMember.names_nodup (m : CommitteeMember) : (m.contents.map (·.1)).Nodup := by
  simp [contents]

theorem CommitteeMember.slots_aligned (m : CommitteeMember) : Slot.Aligned slots m.contents :=
  ⟨rfl, fun _ => check_slot (int64_toJson _), rfl, fun _ => check_slot (text_toJson _), rfl,
    fun _ => check_slot (User.decode_toJson _), rfl, fun _ => check_slot (bool_toJson _), trivial⟩

theorem CommitteeMember.decode_toJson (m : CommitteeMember) :
    decode (Content.object m.contents).toJson = .ok m := by
  have hd := m.names_nodup
  rw [decode, Fields.ofJson_object hd (.of_aligned hd m.slots_aligned)]
  simp only [ok_bind, Fields.required_stored hd, Fields.withDefault_stored hd]
  simp [contents, List.lookup_cons, Fields.stored?_scalar, Fields.stored?_object, text_toJson, bool_toJson,
    int64_toJson, User.decode_toJson, ok_bind]

/-! ## Applications -/

theorem ApplicationCommon.slots_aligned (a : ApplicationCommon) : Slot.Aligned slots a.contents :=
  ⟨rfl, fun _ => check_slot (int64_toJson _), rfl, fun _ => check_slot (text_toJson _), rfl,
    fun _ => check_slot (User.decode_toJson _), rfl, fun _ => check_slot (status_toJson _), rfl,
    check_optional int64_toJson (fun _ => nofun) _, rfl, fun _ => check_slot (timestamp_toJson _), trivial⟩

theorem Submission.slots_aligned (s : Submission) : Slot.Aligned slots s.contents :=
  ⟨rfl, fun _ => check_slot (list_toJson CommitteeMember.decode_toJson _), rfl,
    fun _ => check_slot (list_toJson text_toJson _), rfl,
    check_optional timestamp_toJson (fun _ => nofun) _, rfl,
    check_optional timestamp_toJson (fun _ => nofun) _, rfl,
    check_optional text_toJson (fun _ => nofun) _, trivial⟩

theorem Referral.slots_aligned (r : Referral) : Slot.Aligned slots r.contents :=
  ⟨rfl, fun _ => check_slot (list_toJson text_toJson _), rfl,
    check_optional User.decode_toJson (fun _ => nofun) _, trivial⟩

variable {fields : List (String × Content)}

theorem ApplicationCommon.ofMembers_contents (a : ApplicationCommon) (before after : List (String × Content))
    (e : fields = before ++ (a.contents ++ after)) (hd : (fields.map (·.1)).Nodup) :
    ofMembers (membersOf fields) = .ok a := by
  subst e
  have h := a.slots_aligned
  have htemplate := elim_optional int64_toJson (fun _ => nofun) a.templateId
  rw [ofMembers, Fields.ofMembers_between hd h]
  simp (disch := simp [slots, slot]) only [ok_bind, Fields.required_between hd h,
    Fields.withDefault_between hd h]
  simp [contents, List.lookup_cons, Fields.stored?_scalar, Fields.stored?_object, text_toJson, int64_toJson,
    User.decode_toJson, status_toJson, timestamp_toJson, htemplate, ok_bind]

theorem Submission.ofMembers_contents (s : Submission) (before after : List (String × Content))
    (e : fields = before ++ (s.contents ++ after)) (hd : (fields.map (·.1)).Nodup) :
    ofMembers (membersOf fields) = .ok s := by
  subst e
  have h := s.slots_aligned
  have hsubmitted := elim_optional timestamp_toJson (fun _ => nofun) s.submittedTime
  have happroval := elim_optional timestamp_toJson (fun _ => nofun) s.approvalTime
  have hcomment := elim_optional text_toJson (fun _ => nofun) s.finalComment
  rw [ofMembers, Fields.ofMembers_between hd h]
  simp (disch := simp [slots, slot]) only [ok_bind, Fields.withDefault_between hd h]
  simp [contents, List.lookup_cons, Fields.stored?_list, texts, list_toJson CommitteeMember.decode_toJson,
    list_toJson text_toJson, hsubmitted, happroval, hcomment, ok_bind]

theorem Referral.ofMembers_contents (r : Referral) (before after : List (String × Content))
    (e : fields = before ++ (r.contents ++ after)) (hd : (fields.map (·.1)).Nodup) :
    ofMembers (membersOf fields) = .ok r := by
  subst e
  have h := r.slots_aligned
  have hreferred := elim_optional User.decode_toJson (fun _ => nofun) r.referredBy
  rw [ofMembers, Fields.ofMembers_between hd h]
  simp (disch := simp [slots, slot]) only [ok_bind, Fields.withDefault_between hd h]
  simp [contents, List.lookup_cons, Fields.stored?_list, texts, list_toJson text_toJson, hreferred, ok_bind]

theorem Application.ofFields_contents (a : Application) (hd : (a.contents.map (·.1)).Nodup) :
    ofFields a.variant (Content.object a.contents).toJson = .ok a := by
  cases a with
  | draft common =>
      have hcommon := common.ofMembers_contents [] [] (by simp [contents]) hd
      simp only [variant, toJson, ofFields, hcommon, ok_bind]
  | submitted common submission =>
      have hcommon := common.ofMembers_contents [] submission.contents (by simp [contents]) hd
      have hsubmission := submission.ofMembers_contents common.contents [] (by simp [contents]) hd
      simp only [variant, toJson, ofFields, hcommon, hsubmission, ok_bind]
  | referred common submission referral =>
      have hcommon := common.ofMembers_contents [] (submission.contents ++ referral.contents)
        (by simp [contents]) hd
      have hsubmission := submission.ofMembers_contents common.contents referral.contents
        (by simp [contents]) hd
      have hreferral := referral.ofMembers_contents (common.contents ++ submission.contents) []
        (by simp [contents]) hd
      simp only [variant, toJson, ofFields, hcommon, hsubmission, hreferral, ok_bind]

/-! ## Tags -/

theorem names_membersOf (fields : List (String × Content)) :
    (membersOf fields).map (·.1) ⊆ fields.map (·.1) := by
  induction fields with
  | nil => exact List.Subset.refl _
  | cons f fields ih =>
      obtain ⟨name, c⟩ := f
      by_cases hc : c = .missing
      · subst hc
        exact List.subset_cons_of_subset _ ih
      · rw [membersOf_cons hc]
        exact List.cons_subset_cons _ ih

theorem takeTag_of_not_mem {α : Type} {tag : String} {ms : List Json.Member} (h : tag ∉ ms.map (·.1))
    (decode : Decoder α) (found : Option α) : takeTag tag decode found ms = .ok (found, ms) := by
  induction ms with
  | nil => rfl
  | cons m ms ih =>
      obtain ⟨name, v⟩ := m
      simp only [List.map_cons, List.mem_cons, not_or] at h
      unfold takeTag
      rw [if_neg (Ne.symm h.1), ih h.2, ok_bind]

/-- The tag is taken off the front of a stored object. -/
theorem tagged_object {α : Type} {tag : String} {decode : Decoder α} {c : Content} {a : α}
    (hc : c ≠ .missing) (h : decode c.toJson = .ok a) (hd : (((tag, c) :: fields).map (·.1)).Nodup) :
    tagged tag decode (object ((tag, c) :: fields)).toJson = .ok (a, (object fields).toJson) := by
  obtain ⟨hn, _⟩ := List.nodup_cons.mp hd
  have hrest := takeTag_of_not_mem (fun hm => hn (names_membersOf fields hm)) decode (some a)
  rw [toJson_object, membersOf_cons hc, tagged, takeTag, if_pos rfl]
  simp only [h, ok_bind, hrest, toJson_object]

theorem ApplicationVariant.decode_name (v : ApplicationVariant) : decode (.string v.name) = .ok v := by
  cases v <;> rfl

theorem Application.decode_toJson (a : Application)
    (hd : ((("variant", Content.scalar (.text a.variant.name)) :: a.contents).map (·.1)).Nodup) :
    decode (Content.object (("variant", .scalar (.text a.variant.name)) :: a.contents)).toJson = .ok a := by
  obtain ⟨_, hrest⟩ := List.nodup_cons.mp hd
  have htag := tagged_object (c := .scalar (.text a.variant.name)) nofun a.variant.decode_name hd
  rw [decode, htag, ok_bind]
  exact a.ofFields_contents hrest

/-! ## Depth -/

open Json (Plain)

variable {d : Nat}

theorem plain_scalar (v : Value) : Plain d (scalar v).toJson := by
  cases v with
  | text s => exact .string s
  | integer n => exact .integer ⟨Int64.le_toInt n, Int.lt_trans (Int64.toInt_lt n) (by decide)⟩
  | boolean b => exact .bool b
  | enum name => exact .string name
  | timestamp t => exact .string _

theorem plain_optional {α : Type} {content : α → Content} (h : ∀ a, Plain d (content a).toJson)
    (o : Option α) : Plain d (Content.optional content o).toJson := by
  cases o with
  | none => exact .null
  | some a => exact h a

theorem plain_list {α : Type} {content : α → Content} (h : ∀ a, Plain d (content a).toJson)
    (as : List α) : Plain (d + 1) (list (as.map content)).toJson := by
  rw [toJson_list]
  refine .array fun x hx => ?_
  simp only [List.map_map, List.mem_map] at hx
  obtain ⟨a, _, rfl⟩ := hx
  exact h a

theorem plain_object (h : ∀ f ∈ fields, Plain d f.2.toJson) : Plain (d + 1) (object fields).toJson := by
  rw [toJson]
  refine .object fun m hm => ?_
  induction fields with
  | nil => cases hm
  | cons f fields ih =>
      obtain ⟨name, c⟩ := f
      have hrest : ∀ f ∈ fields, Plain d f.2.toJson := fun f hf => h f (List.mem_cons_of_mem _ hf)
      by_cases hc : c = .missing
      · subst hc
        exact ih hrest hm
      · rw [membersOf_cons hc] at hm
        rcases List.mem_cons.mp hm with rfl | hm
        · exact h (name, c) (List.mem_cons_self ..)
        · exact ih hrest hm

theorem Account.plain (a : Account) (d : Nat) : Plain (d + 1) (Content.object a.contents).toJson :=
  plain_object (by simp [contents, plain_scalar])

theorem Role.plain (r : Role) (d : Nat) : Plain (d + 1) (Content.object r.contents).toJson :=
  plain_object (by simp [contents, plain_scalar])

theorem User.plain_contents (u : User) (d : Nat) : ∀ f ∈ u.contents, Plain (d + 1) f.2.toJson := by
  simp [contents, plain_scalar, plain_optional fun a => Account.plain a d, Role.plain]

theorem User.plain (u : User) (d : Nat) : Plain (d + 2) (Content.object u.contents).toJson :=
  plain_object (u.plain_contents d)

theorem CommitteeMember.plain (m : CommitteeMember) (d : Nat) :
    Plain (d + 3) (Content.object m.contents).toJson :=
  plain_object (by simp [contents, plain_scalar, User.plain])

theorem Application.plain_contents (a : Application) : ∀ f ∈ a.contents, Plain 4 f.2.toJson := by
  have hmembers := plain_list fun m => CommitteeMember.plain m 0
  have htexts := plain_list (d := 3) fun t => plain_scalar (.text t)
  have huser : ∀ u : User, Plain 4 (Content.object u.contents).toJson := fun u => u.plain 2
  cases a <;>
    simp [contents, ApplicationCommon.contents, Submission.contents, Referral.contents, texts,
      plain_scalar, huser, hmembers, htexts, plain_optional fun _ => plain_scalar _, plain_optional huser,
      or_imp, forall_and]

namespace Record

theorem decode_toJson (r : Record) : decode r.toJson = .ok r := by
  have hd := r.names_nodup
  rw [← r.toJson_content]
  cases r with
  | account a =>
      have htag : tagged "entity" RecordTable.decode (content (.account a)).toJson =
          .ok (.account, (Content.object a.contents).toJson) := tagged_object nofun rfl hd
      rw [decode, htag, ok_bind]
      simp only [Account.decode_toJson, Except.map]
  | user u =>
      have htag : tagged "entity" RecordTable.decode (content (.user u)).toJson =
          .ok (.user, (Content.object u.contents).toJson) := tagged_object nofun rfl hd
      rw [decode, htag, ok_bind]
      simp only [User.decode_toJson, Except.map]
  | application a =>
      have htag : tagged "entity" RecordTable.decode (content (.application a)).toJson =
          .ok (.application, (Content.object
            (("variant", .scalar (.text a.variant.name)) :: a.contents)).toJson) :=
        tagged_object nofun rfl hd
      rw [decode, htag, ok_bind]
      simp only [a.decode_toJson (List.nodup_cons.mp hd).2, Except.map]

/-- Records nest at most five levels. -/
theorem plain (r : Record) : Plain 5 r.toJson := by
  rw [← r.toJson_content]
  refine plain_object fun f hf => ?_
  rcases List.mem_append.mp hf with hf | hf
  · have htag : ∃ v, f.2 = .scalar v := by
      cases r <;> simp only [tags, List.mem_cons, List.not_mem_nil, or_false] at hf
      · exact ⟨_, by rw [hf]⟩
      · exact ⟨_, by rw [hf]⟩
      · rcases hf with rfl | rfl <;> exact ⟨_, rfl⟩
    obtain ⟨v, hv⟩ := htag
    rw [hv]
    exact plain_scalar v
  · cases r with
    | account a =>
        simp only [contents, Account.contents, List.mem_cons, List.not_mem_nil, or_false] at hf
        rcases hf with rfl | rfl | rfl <;> exact plain_scalar _
    | user u => exact u.plain_contents 3 f hf
    | application a => exact a.plain_contents f hf

theorem parse_print (r : Record) : parse r.print = .ok r := by
  rw [parse, print, Json.parse?_print (r.plain.mono (by decide))]
  exact mapError_eq_ok_iff.mpr r.decode_toJson

end Record

end RecordSearch

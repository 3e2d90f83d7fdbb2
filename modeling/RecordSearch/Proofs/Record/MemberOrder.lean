import RecordSearch.Proofs.Outcome
import RecordSearch.Proofs.Record.Rearrangement
import RecordSearch.Proofs.Record.RoundTrip
import RecordSearch.Record.Decoder

/-!
# Records from members in any order

Whether a text holds a record, and which one, does not depend on the order of the members of its objects,
nor on members that the records do not know.
-/

namespace RecordSearch

open Json (Member)

theorem Same.mapM {ε α β : Type} {f : α → Except ε β} {xs ys : List α}
    (h : List.Forall₂ (fun x y => Same (f x) (f y)) xs ys) : Same (xs.mapM f) (ys.mapM f) := by
  induction h with
  | nil => exact .refl _
  | cons h _ ih =>
      rw [List.mapM_cons, List.mapM_cons]
      exact h.bind fun b _ => ih.bind fun bs _ => .refl _

/-! ## Checks of fields -/

open Json (Rearranged valuesOf Agree)

namespace Slot

variable {slots : List Slot} {fields : FieldTable} {ms ns : List Member} {seen : List String}

/-- Under the name of a slot stands at most one value, and none if the name was seen; it passes the check. -/
def Clear (slots : List Slot) (seen : List String) (ms : List Member) : Prop :=
  ∀ name s, slots.find? (·.name = name) = some s → (name ∈ seen → valuesOf name ms = []) ∧
    (valuesOf name ms).length ≤ 1 ∧ ∀ v ∈ valuesOf name ms, s.check v = .ok ()

variable {k : String} {v : Json} {s : Slot}

theorem clear_cons_of_no_slot (hk : slots.find? (·.name = k) = none) :
    Clear slots seen ((k, v) :: ms) ↔ Clear slots seen ms := by
  refine forall₂_congr fun name s => imp_congr_right fun hs => ?_
  have hne : k ≠ name := by
    rintro rfl
    rw [hk] at hs
    cases hs
  rw [Json.valuesOf_cons_of_ne hne]

theorem not_clear_cons_of_seen (hk : slots.find? (·.name = k) = some s) (hseen : k ∈ seen) :
    ¬ Clear slots seen ((k, v) :: ms) := by
  intro h
  have hnone := (h k s hk).1 hseen
  rw [Json.valuesOf_cons_self] at hnone
  cases hnone

theorem clear_cons_of_slot (hk : slots.find? (·.name = k) = some s) (hseen : k ∉ seen) :
    Clear slots seen ((k, v) :: ms) ↔ s.check v = .ok () ∧ Clear slots (k :: seen) ms := by
  constructor
  · intro h
    obtain ⟨-, hlength, hchecks⟩ := h k s hk
    rw [Json.valuesOf_cons_self] at hlength hchecks
    have hlast : valuesOf k ms = [] := List.eq_nil_of_length_eq_zero (by simpa using hlength)
    refine ⟨hchecks v List.mem_cons_self, fun name s' hs' => ?_⟩
    by_cases hn : k = name
    · subst hn
      simp [hlast]
    · have hrest := h name s' hs'
      rw [Json.valuesOf_cons_of_ne hn] at hrest
      exact ⟨fun hm => hrest.1 ((List.mem_cons.mp hm).resolve_left (Ne.symm hn)), hrest.2⟩
  · rintro ⟨hv, h⟩ name s' hs'
    obtain ⟨hrepeated, hlength, hchecks⟩ := h name s' hs'
    by_cases hn : k = name
    · subst hn
      cases hk.symm.trans hs'
      rw [Json.valuesOf_cons_self, hrepeated List.mem_cons_self]
      exact ⟨fun h => absurd h hseen, Nat.le_refl 1, by simpa using hv⟩
    · rw [Json.valuesOf_cons_of_ne hn]
      exact ⟨fun h => hrepeated (List.mem_cons_of_mem k h), hlength, hchecks⟩

theorem scan_eq_ok_iff : scan slots seen ms = .ok () ↔ Clear slots seen ms := by
  induction ms generalizing seen with
  | nil => simp [scan, Clear]
  | cons m ms ih =>
      obtain ⟨k, v⟩ := m
      rw [scan]
      cases hk : slots.find? (·.name = k) with
      | none => rw [ih, clear_cons_of_no_slot hk]
      | some s =>
          dsimp only
          split
          · next hseen => exact ⟨by rintro ⟨⟩, fun h => absurd h (not_clear_cons_of_seen hk hseen)⟩
          · next hseen =>
            rw [bind_eq_ok_iff, clear_cons_of_slot hk hseen, ← ih]
            constructor
            · rintro ⟨_, hv, hscan⟩
              exact ⟨hv, hscan⟩
            · rintro ⟨hv, hscan⟩
              exact ⟨(), hv, hscan⟩

/-- The slots are for the fields of the table, in the same order, and their checks do not tell a value from
one that it becomes when it is rearranged. -/
def Follow (slots : List Slot) (fields : FieldTable) : Prop :=
  List.Forall₂ (fun s f => s.name = f.1 ∧ ∀ v w, Rearranged f.2 v w → Same (s.check v) (s.check w)) slots fields

theorem Follow.names (h : Follow slots fields) : slots.map (·.name) = fields.map (·.1) := by
  induction h with
  | nil => rfl
  | cons h _ ih => rw [List.map_cons, List.map_cons, h.1, ih]

/-- Under every name there is a slot and a field, or neither. -/
theorem Follow.find? (h : Follow slots fields) (name : String) :
    (slots.find? (·.name = name) = none ∧ FieldTable.find? fields name = none) ∨
      ∃ s type, slots.find? (·.name = name) = some s ∧ FieldTable.find? fields name = some type ∧
        ∀ v w, Rearranged type v w → Same (s.check v) (s.check w) := by
  induction h with
  | nil => exact .inl ⟨rfl, rfl⟩
  | @cons s f slots fields h _ ih =>
      obtain ⟨k, type⟩ := f
      obtain ⟨hk, hcheck⟩ := h
      by_cases hn : k = name
      · subst hn
        exact .inr ⟨s, type, List.find?_cons_of_pos (by simpa using hk), List.lookup_cons_self, hcheck⟩
      · have hslot : s.name ≠ name := hk ▸ hn
        have hfield : FieldTable.find? ((k, type) :: fields) name = FieldTable.find? fields name := by
          rw [FieldTable.find?, List.lookup_cons, beq_false_of_ne (Ne.symm hn)]
          rfl
        rw [List.find?_cons_of_neg (by simpa using hslot), hfield]
        exact ih

/-- Where members agree, one scan passes if the other does. -/
theorem Follow.scan (h : Follow slots fields) (ha : Agree fields ms ns) :
    Same (Slot.scan slots [] ms) (Slot.scan slots [] ns) := by
  rintro ⟨⟩
  rw [scan_eq_ok_iff, scan_eq_ok_iff]
  refine forall₂_congr fun name s => imp_congr_right fun hs => ?_
  rcases h.find? name with ⟨hnone, _⟩ | ⟨s', type, hs', htype, hcheck⟩
  · rw [hs] at hnone
    cases hnone
  · cases hs.symm.trans hs'
    have hpaired := ha name type htype
    generalize valuesOf name ms = xs, valuesOf name ns = ys at hpaired ⊢
    cases hpaired with
    | none => exact Iff.rfl
    | one hr => simp [hcheck _ _ hr ()]
    | many hx hy => constructor <;> intro h <;> omega

theorem Follow.lookup (h : Follow slots fields) (ha : Agree fields ms ns)
    (hs : Slot.scan slots [] ms = .ok ()) {name : String} {type : FieldType}
    (hf : FieldTable.find? fields name = some type) :
    Option.Rel (Rearranged type) (ms.lookup name) (ns.lookup name) := by
  rcases h.find? name with ⟨_, hnone⟩ | ⟨s, _, hslot, _⟩
  · rw [hf] at hnone
    cases hnone
  · have hlength := (scan_eq_ok_iff.mp hs name s hslot).2.1
    have hpaired := ha name type hf
    rw [Json.lookup_eq_head?, Json.lookup_eq_head?]
    generalize valuesOf name ms = xs, valuesOf name ns = ys at hlength hpaired ⊢
    cases hpaired with
    | none => exact .none
    | one hr => exact .some hr
    | many hx _ => omega

end Slot

namespace Fields

variable {α : Type} {slots : List Slot} {fields : FieldTable} {build : Fields → Except RecordError α}
  {f g : Fields} {name : String} {type : FieldType} {decode : Decoder α}

/-- Under the name of every field of the table stand a value and that value rearranged, or nothing. -/
def Alike (fields : FieldTable) (f g : Fields) : Prop :=
  ∀ name type, FieldTable.find? fields name = some type →
    Option.Rel (Rearranged type) (f.members.lookup name) (g.members.lookup name)

theorem ofMembers_bind (ms : List Member) :
    ofMembers slots ms >>= build = Slot.scan slots [] ms >>= fun _ => build ⟨ms, .missingField⟩ := by
  rw [ofMembers, ofJson]
  cases Slot.scan slots [] ms <;> rfl

theorem ofJson_array_bind (xs : List Json) :
    ofJson slots (.array xs) >>= build =
      Slot.scan slots [] ((slots.map (·.name)).zip xs) >>= fun _ =>
        if slots.length < xs.length then .error .unfit
        else build ⟨(slots.map (·.name)).zip xs, fun _ => .unfit⟩ := by
  rw [ofJson]
  cases Slot.scan slots [] ((slots.map (·.name)).zip xs) with
  | error e => rfl
  | ok _ =>
      dsimp only [ok_bind]
      split <;> rfl

theorem same_ofMembers (h : Slot.Follow slots fields) (hb : ∀ f g, Alike fields f g → Same (build f) (build g))
    {ms ns : List Member} (ha : Agree fields ms ns) :
    Same (ofMembers slots ms >>= build) (ofMembers slots ns >>= build) := by
  rw [ofMembers_bind, ofMembers_bind]
  exact (h.scan ha).bind fun _ hs => hb _ _ fun _ _ => h.lookup ha hs

theorem same_ofArray (h : Slot.Follow slots fields) (hb : ∀ f g, Alike fields f g → Same (build f) (build g))
    (hd : (fields.map (·.1)).Nodup) {xs ys : List Json} (length : xs.length = ys.length)
    (elements : ∀ i, ∀ p ∈ (xs.zip ys)[i]?, Rearranged (FieldType.element (.object fields) i) p.1 p.2) :
    Same (ofJson slots (.array xs) >>= build) (ofJson slots (.array ys) >>= build) := by
  have ha := Json.agree_zip hd length elements
  rw [← h.names] at ha
  rw [ofJson_array_bind, ofJson_array_bind, length]
  refine (h.scan ha).bind fun _ hs => ?_
  split
  · exact .refl _
  · exact hb _ _ fun _ _ => h.lookup ha hs

end Fields

/-! ## Decoders -/

namespace Decoder

variable {α : Type} {decode : Decoder α} {type element : FieldType} {fields : FieldTable}

/-- The decoder does not tell a value of the type from one that it becomes when it is rearranged. -/
def Steady (type : FieldType) (decode : Decoder α) : Prop :=
  ∀ v w, Rearranged type v w → Same (decode v) (decode w)

/-- The decoder takes neither arrays nor objects. -/
def Scalar (decode : Decoder α) : Prop :=
  (∀ xs, ∃ e, decode (.array xs) = .error e) ∧ ∀ ms, ∃ e, decode (.object ms) = .error e

theorem Scalar.steady (h : Scalar decode) : decode.Steady type := by
  rintro v w hr
  cases hr with
  | same => exact .refl _
  | @array _ xs ys =>
      obtain ⟨e, hx⟩ := h.1 xs
      obtain ⟨e', hy⟩ := h.1 ys
      rw [hx, hy]
      exact .of_errors
  | @object _ ms _ _ ns =>
      obtain ⟨e, hm⟩ := h.2 ms
      obtain ⟨e', hn⟩ := h.2 ns
      rw [hm, hn]
      exact .of_errors

theorem steady_text : text.Steady type := Scalar.steady ⟨fun _ => ⟨_, rfl⟩, fun _ => ⟨_, rfl⟩⟩

theorem steady_bool : bool.Steady type := Scalar.steady ⟨fun _ => ⟨_, rfl⟩, fun _ => ⟨_, rfl⟩⟩

theorem steady_int64 : int64.Steady type := Scalar.steady ⟨fun _ => ⟨_, rfl⟩, fun _ => ⟨_, rfl⟩⟩

theorem steady_timestamp : timestamp.Steady type := Scalar.steady ⟨fun _ => ⟨_, rfl⟩, fun _ => ⟨_, rfl⟩⟩

theorem steady_optional (h : decode.Steady type) : (optional decode).Steady type := by
  intro v w hr
  have hsame := (h v w hr).map some
  cases hr with
  | same => exact .refl _
  | array => exact hsame
  | object => exact hsame

theorem steady_list (h : decode.Steady element) : (list decode).Steady (.list element) := by
  intro v w hr
  cases hr with
  | same => exact .refl _
  | array length elements =>
      refine .mapM (List.forall₂_iff_zip.mpr ⟨length, fun {x y} hp => ?_⟩)
      obtain ⟨i, hi⟩ := List.mem_iff_getElem?.mp hp
      exact h x y (elements i _ hi)
  | object => exact .of_errors

theorem status_object_of_length {ms : List Member} (h : ms.length ≠ 1) :
    status (.object ms) = .error .unfit := by
  match ms with
  | [] => rfl
  | [_] => exact absurd rfl h
  | _ :: _ :: _ => rfl

/-- What a state that is written as an object holds must not hold anything that could be rearranged. -/
theorem same_status_member (name : String) {v w : Json} (h : Rearranged .text v w) :
    Same (status (.object [(name, v)])) (status (.object [(name, w)])) := by
  cases h with
  | same => exact .refl _
  | array => exact (Same.refl (status.named name)).bind fun _ _ => .of_errors
  | @object _ ms kept unknown ns names values ignored order =>
      obtain ⟨kept, hkept, hperm⟩ :=
        (Rearranged.object names values ignored order).exists_kept_perm fun _ => not_false
      have hlength := hkept.length_eq.trans hperm.length_eq
      refine (Same.refl (status.named name)).bind fun s _ => ?_
      match ms, ns, hlength with
      | [], [], _ => exact .refl _
      | _ :: _, _ :: _, _ => exact .of_errors

theorem steady_status (names : List String) : status.Steady (.enum names) := by
  intro v w hr
  cases hr with
  | same => exact .refl _
  | array => exact .of_errors
  | @object _ ms _ _ ns hnames values ignored order =>
      obtain ⟨kept, hkept, hperm⟩ :=
        (Rearranged.object hnames values ignored order).exists_kept_perm fun _ => not_false
      by_cases hlength : ms.length = 1
      · obtain ⟨⟨name, v⟩, rfl⟩ := List.length_eq_one_iff.mp hlength
        cases hkept with
        | @cons _ m _ _ hm hrest =>
            cases hrest
            obtain ⟨name', w⟩ := m
            obtain ⟨rfl, hvalue⟩ := hm
            cases List.singleton_perm.mp hperm
            exact same_status_member name hvalue
      · have hlength' : ns.length ≠ 1 := fun h => hlength ((hkept.length_eq.trans hperm.length_eq).trans h)
        rw [status_object_of_length hlength, status_object_of_length hlength']
        exact .refl _

end Decoder

namespace Fields

variable {α : Type} {fields : FieldTable} {f g : Fields} {name : String} {type : FieldType} {decode : Decoder α}

theorem Alike.required (h : Alike fields f g) (hf : FieldTable.find? fields name = some type)
    (hd : decode.Steady type) : Same (f.required name decode) (g.required name decode) := by
  have hrel := h name type hf
  rw [Fields.required, Fields.required]
  generalize f.members.lookup name = x, g.members.lookup name = y at hrel ⊢
  cases hrel with
  | some hr => exact hd _ _ hr
  | none => exact .of_errors

theorem Alike.withDefault (h : Alike fields f g) (hf : FieldTable.find? fields name = some type)
    (hd : decode.Steady type) (default : α) :
    Same (f.withDefault name decode default) (g.withDefault name decode default) := by
  have hrel := h name type hf
  rw [Fields.withDefault, Fields.withDefault]
  generalize f.members.lookup name = x, g.members.lookup name = y at hrel ⊢
  cases hrel with
  | some hr => exact hd _ _ hr
  | none => exact .refl _

end Fields

/-- The decoder does not tell objects whose members agree, nor arrays whose elements were rearranged. -/
structure Decoder.SteadyOn {α : Type} (fields : FieldTable) (decode : Decoder α) : Prop where
  object : ∀ {ms ns}, Agree fields ms ns → Same (decode (.object ms)) (decode (.object ns))
  array : ∀ {xs ys : List Json}, xs.length = ys.length →
    (∀ i, ∀ p ∈ (xs.zip ys)[i]?, Rearranged (FieldType.element (.object fields) i) p.1 p.2) →
    Same (decode (.array xs)) (decode (.array ys))

theorem Decoder.SteadyOn.steady {α : Type} {fields : FieldTable} {decode : Decoder α}
    (h : decode.SteadyOn fields) : decode.Steady (.object fields) := by
  intro v w hr
  cases hr with
  | same => exact .refl _
  | array length elements => exact h.array length elements
  | object names values ignored order => exact h.object (Rearranged.object names values ignored order).agree

theorem Fields.steadyOn {α : Type} {slots : List Slot} {fields : FieldTable}
    {build : Fields → Except RecordError α} (h : Slot.Follow slots fields) (hd : (fields.map (·.1)).Nodup)
    (hb : ∀ f g, Alike fields f g → Same (build f) (build g)) :
    Decoder.SteadyOn fields fun v => ofJson slots v >>= build where
  object ha := same_ofMembers h hb ha
  array length elements := same_ofArray h hb hd length elements

theorem Slot.follow_cons {α : Type} {name : String} {decode : Decoder α} {type : FieldType} {slots : List Slot}
    {fields : FieldTable} (hd : decode.Steady type) (h : Follow slots fields) :
    Follow (slot name decode :: slots) ((name, type) :: fields) :=
  .cons ⟨rfl, fun v w hr => (hd v w hr).map _⟩ h

/-! ## Parts of records -/

open Decoder Slot

theorem Account.steadyOn : decode.SteadyOn accountFields := by
  have hfollow : Follow slots accountFields :=
    follow_cons steady_text (follow_cons steady_text (follow_cons steady_bool .nil))
  refine Fields.steadyOn hfollow (by decide) fun f g h => ?_
  refine (h.required rfl steady_text).bind fun username _ => ?_
  refine (h.required rfl steady_text).bind fun email _ => ?_
  exact (h.withDefault rfl steady_bool false).bind fun confirmed _ => .refl _

theorem Role.steadyOn : decode.SteadyOn roleFields := by
  have hfollow : Follow slots roleFields :=
    follow_cons steady_int64 (follow_cons steady_text (follow_cons steady_text (follow_cons steady_bool .nil)))
  refine Fields.steadyOn hfollow (by decide) fun f g h => ?_
  refine (h.required rfl steady_int64).bind fun id _ => ?_
  refine (h.required rfl steady_text).bind fun name _ => ?_
  refine (h.withDefault rfl steady_text "").bind fun description _ => ?_
  exact (h.withDefault rfl steady_bool false).bind fun singleUser _ => .refl _

theorem User.steadyOn : decode.SteadyOn userFields := by
  have haccount := steady_optional Account.steadyOn.steady
  have hrole := Role.steadyOn.steady
  have hfollow : Follow slots userFields :=
    follow_cons steady_text (follow_cons steady_text (follow_cons steady_text (follow_cons haccount
      (follow_cons hrole .nil))))
  refine Fields.steadyOn hfollow (by decide) fun f g h => ?_
  refine (h.required rfl steady_text).bind fun username _ => ?_
  refine (h.required rfl steady_text).bind fun name _ => ?_
  refine (h.withDefault rfl steady_text "").bind fun department _ => ?_
  refine (h.withDefault rfl haccount none).bind fun account _ => ?_
  exact (h.required rfl hrole).bind fun role _ => .refl _

theorem CommitteeMember.steadyOn : decode.SteadyOn committeeMemberFields := by
  have huser := User.steadyOn.steady
  have hfollow : Follow slots committeeMemberFields :=
    follow_cons steady_int64 (follow_cons steady_text (follow_cons huser (follow_cons steady_bool .nil)))
  refine Fields.steadyOn hfollow (by decide) fun f g h => ?_
  refine (h.required rfl steady_int64).bind fun id _ => ?_
  refine (h.required rfl steady_text).bind fun applicationId _ => ?_
  refine (h.required rfl huser).bind fun user _ => ?_
  exact (h.withDefault rfl steady_bool false).bind fun finishReview _ => .refl _

variable {ms ns : List Member}

theorem ApplicationCommon.same_ofMembers (ha : Agree draftFields ms ns) : Same (ofMembers ms) (ofMembers ns) := by
  have huser := User.steadyOn.steady
  have hstatus := steady_status ApplicationStatus.names
  have htemplate : (optional int64).Steady .integer := steady_optional steady_int64
  have hfollow : Follow slots draftFields :=
    follow_cons steady_int64 (follow_cons steady_text (follow_cons huser (follow_cons hstatus
      (follow_cons htemplate (follow_cons steady_timestamp .nil)))))
  refine Fields.same_ofMembers hfollow (fun f g h => ?_) ha
  refine (h.required rfl steady_int64).bind fun id _ => ?_
  refine (h.required rfl steady_text).bind fun applicationId _ => ?_
  refine (h.required rfl huser).bind fun user _ => ?_
  refine (h.required rfl hstatus).bind fun status _ => ?_
  refine (h.withDefault rfl htemplate none).bind fun templateId _ => ?_
  exact (h.required rfl steady_timestamp).bind fun lastUpdated _ => .refl _

theorem Submission.same_ofMembers (ha : Agree submissionFields ms ns) : Same (ofMembers ms) (ofMembers ns) := by
  have hmembers := steady_list CommitteeMember.steadyOn.steady
  have hnames : (list text).Steady (.list .text) := steady_list steady_text
  have htime : (optional timestamp).Steady .timestamp := steady_optional steady_timestamp
  have hcomment : (optional text).Steady .text := steady_optional steady_text
  have hfollow : Follow slots submissionFields :=
    follow_cons hmembers (follow_cons hnames (follow_cons htime (follow_cons htime (follow_cons hcomment .nil))))
  refine Fields.same_ofMembers hfollow (fun f g h => ?_) ha
  refine (h.withDefault rfl hmembers []).bind fun assigned _ => ?_
  refine (h.withDefault rfl hnames []).bind fun previous _ => ?_
  refine (h.withDefault rfl htime none).bind fun submittedTime _ => ?_
  refine (h.withDefault rfl htime none).bind fun approvalTime _ => ?_
  exact (h.withDefault rfl hcomment none).bind fun finalComment _ => .refl _

theorem Referral.same_ofMembers (ha : Agree referralFields ms ns) : Same (ofMembers ms) (ofMembers ns) := by
  have hfields : (list text).Steady (.list .text) := steady_list steady_text
  have huser := steady_optional User.steadyOn.steady
  have hfollow : Follow slots referralFields := follow_cons hfields (follow_cons huser .nil)
  refine Fields.same_ofMembers hfollow (fun f g h => ?_) ha
  refine (h.withDefault rfl hfields []).bind fun editableFields _ => ?_
  exact (h.withDefault rfl huser none).bind fun referredBy _ => .refl _

/-- An application of a variant is made from the fields of its parts, which share no name. -/
theorem Application.same_ofFields {v : ApplicationVariant} (ha : Agree (Scope.variant v).fields ms ns) :
    Same (ofFields v (.object ms)) (ofFields v (.object ns)) := by
  cases v with
  | draft => exact (ApplicationCommon.same_ofMembers ha).bind fun common _ => .refl _
  | submitted =>
      have hsubmission : Agree submissionFields ms ns := ha.of_subset (by decide) (List.drop_subset ..)
      have hcommon : Agree draftFields ms ns := ha.of_subset (by decide) (List.subset_append_left ..)
      refine (Submission.same_ofMembers hsubmission).bind fun submission _ => ?_
      exact (ApplicationCommon.same_ofMembers hcommon).bind fun common _ => .refl _
  | referred =>
      have hreferral : Agree referralFields ms ns := ha.of_subset (by decide) (List.drop_subset ..)
      have hsubmitted : Agree submittedFields ms ns := ha.of_subset (by decide) (List.subset_append_left ..)
      have hsubmission : Agree submissionFields ms ns := hsubmitted.of_subset (by decide) (List.drop_subset ..)
      have hcommon : Agree draftFields ms ns := hsubmitted.of_subset (by decide) (List.subset_append_left ..)
      refine (Referral.same_ofMembers hreferral).bind fun referral _ => ?_
      refine (Submission.same_ofMembers hsubmission).bind fun submission _ => ?_
      exact (ApplicationCommon.same_ofMembers hcommon).bind fun common _ => .refl _

/-! ## Tags -/

section

variable {α β : Type} {tag : String} {decode : Decoder α} {found : Option α} {rest : List Member} {a : α}

theorem takeTag_some_eq_ok_iff :
    takeTag tag decode (some a) ms = .ok (found, rest) ↔ valuesOf tag ms = [] ∧ found = some a ∧ rest = ms := by
  induction ms generalizing found rest with
  | nil =>
      simp only [takeTag, Except.ok.injEq, Prod.mk.injEq, Json.valuesOf_nil, true_and]
      exact and_congr eq_comm eq_comm
  | cons m ms ih =>
      obtain ⟨k, v⟩ := m
      rw [takeTag]
      by_cases hk : k = tag
      · rw [if_pos hk, hk, Json.valuesOf_cons_self]
        exact ⟨by rintro ⟨⟩, by rintro ⟨⟨⟩, _⟩⟩
      · rw [if_neg hk, Json.valuesOf_cons_of_ne hk, bind_eq_ok_iff]
        constructor
        · rintro ⟨⟨found', rest'⟩, h, heq⟩
          obtain ⟨hnone, rfl, rfl⟩ := ih.mp h
          cases heq
          exact ⟨hnone, rfl, rfl⟩
        · rintro ⟨hnone, rfl, rfl⟩
          exact ⟨(some a, ms), ih.mpr ⟨hnone, rfl, rfl⟩, rfl⟩

/-- A tag is found if it is the only one, and the other members are left in their order. -/
theorem takeTag_none_eq_ok_iff :
    takeTag tag decode none ms = .ok (some a, rest) ↔
      ∃ v, valuesOf tag ms = [v] ∧ decode v = .ok a ∧ rest = Json.without tag ms := by
  induction ms generalizing rest with
  | nil => simp [takeTag]
  | cons m ms ih =>
      obtain ⟨k, v⟩ := m
      rw [takeTag]
      by_cases hk : k = tag
      · rw [if_pos hk, hk, Json.valuesOf_cons_self, Json.without_cons_self, bind_eq_ok_iff]
        constructor
        · rintro ⟨b, hb, h⟩
          obtain ⟨hnone, hfound, rfl⟩ := takeTag_some_eq_ok_iff.mp h
          cases hfound
          exact ⟨v, by rw [hnone], hb, (Json.without_of_valuesOf hnone).symm⟩
        · rintro ⟨w, hw, ha, rfl⟩
          obtain ⟨rfl, hnone⟩ := List.cons.inj hw
          exact ⟨a, ha, takeTag_some_eq_ok_iff.mpr ⟨hnone, rfl, Json.without_of_valuesOf hnone⟩⟩
      · rw [if_neg hk, Json.valuesOf_cons_of_ne hk, Json.without_cons_of_ne hk, bind_eq_ok_iff]
        constructor
        · rintro ⟨⟨found', rest'⟩, h, heq⟩
          cases heq
          obtain ⟨w, hw, ha, rfl⟩ := ih.mp h
          exact ⟨w, hw, ha, rfl⟩
        · rintro ⟨w, hw, ha, rfl⟩
          exact ⟨(some a, Json.without tag ms), ih.mpr ⟨w, hw, ha, rfl⟩, rfl⟩

theorem tagged_object_eq_ok_iff {v : Json} :
    tagged tag decode (.object ms) = .ok (a, v) ↔
      ∃ t, valuesOf tag ms = [t] ∧ decode t = .ok a ∧ v = .object (Json.without tag ms) := by
  have hcases : tagged tag decode (.object ms) = .ok (a, v) ↔
      ∃ rest, takeTag tag decode none ms = .ok (some a, rest) ∧ v = .object rest := by
    rw [tagged, bind_eq_ok_iff]
    constructor
    · rintro ⟨⟨_ | b, rest⟩, h, heq⟩
      · cases heq
      · cases heq
        exact ⟨rest, h, rfl⟩
    · rintro ⟨rest, h, rfl⟩
      exact ⟨_, h, rfl⟩
  rw [hcases]
  simp only [takeTag_none_eq_ok_iff]
  constructor
  · rintro ⟨rest, ⟨t, ht, ha, rfl⟩, rfl⟩
    exact ⟨t, ht, ha, rfl⟩
  · rintro ⟨t, ht, ha, rfl⟩
    exact ⟨_, ⟨t, ht, ha, rfl⟩, rfl⟩

/-- What comes of a tagged value, if what its tag says does not tell the members apart. -/
theorem same_tagged {type : FieldType} {next : α × Json → Except RecordError β}
    (hp : Json.Paired (Rearranged type) (valuesOf tag ms) (valuesOf tag ns)) (hd : decode.Steady type)
    (hn : ∀ t a, valuesOf tag ms = [t] → decode t = .ok a →
      Same (next (a, .object (Json.without tag ms))) (next (a, .object (Json.without tag ns)))) :
    Same (tagged tag decode (.object ms) >>= next) (tagged tag decode (.object ns) >>= next) := by
  intro b
  simp only [bind_eq_ok_iff, Prod.exists, tagged_object_eq_ok_iff]
  generalize valuesOf tag ms = xs, valuesOf tag ns = ys at hp hn ⊢
  cases hp with
  | none => simp
  | @one v w hr =>
      constructor
      · rintro ⟨a, _, ⟨t, ht, ha, rfl⟩, hb⟩
        cases ht
        exact ⟨a, _, ⟨w, rfl, (hd v w hr a).mp ha, rfl⟩, (hn v a rfl ha b).mp hb⟩
      · rintro ⟨a, _, ⟨t, ht, ha, rfl⟩, hb⟩
        cases ht
        have ha' := (hd v w hr a).mpr ha
        exact ⟨a, _, ⟨v, rfl, ha', rfl⟩, (hn v a rfl ha' b).mpr hb⟩
  | many hx hy =>
      constructor
      · rintro ⟨_, _, ⟨t, rfl, _⟩, _⟩
        exact absurd hx (by simp)
      · rintro ⟨_, _, ⟨t, rfl, _⟩, _⟩
        exact absurd hy (by simp)

end

namespace Record

/-- What a tag among members says, if it can be read. -/
def tag? {α : Type} (tag : String) (decode : Decoder α) (ms : List Member) : Option α :=
  (ms.lookup tag).bind fun v => (decode v).toOption

/-- The fields that the record of an object knows: the tags, and the fields of what the tags say it is. -/
def fieldsOf (ms : List Member) : FieldTable :=
  match tag? "entity" RecordTable.decode ms with
  | some .account => ("entity", .text) :: accountFields
  | some .user => ("entity", .text) :: userFields
  | some .application =>
      ("entity", .text) :: ("variant", .text) ::
        match tag? "variant" ApplicationVariant.decode ms with
        | some v => (Scope.variant v).fields
        | none => []
  | none => [("entity", .text)]

theorem tag?_eq {α : Type} {tag : String} {decode : Decoder α} {t : Json} {a : α} (ht : valuesOf tag ms = [t])
    (ha : decode t = .ok a) : tag? tag decode ms = some a := by
  rw [tag?, Json.lookup_eq_head?, ht, List.head?_cons, Option.bind_some, ha]
  rfl

theorem steady_table {type : FieldType} : RecordTable.decode.Steady type :=
  Scalar.steady ⟨fun _ => ⟨_, rfl⟩, fun _ => ⟨_, rfl⟩⟩

theorem steady_variant {type : FieldType} : ApplicationVariant.decode.Steady type :=
  Scalar.steady ⟨fun _ => ⟨_, rfl⟩, fun _ => ⟨_, rfl⟩⟩

theorem same_application (ht : tag? "entity" RecordTable.decode ms = some .application)
    (ha : Agree (fieldsOf ms) ms ns) :
    Same (Application.decode (.object (Json.without "entity" ms)))
      (Application.decode (.object (Json.without "entity" ns))) := by
  rw [fieldsOf, ht] at ha
  have hentity : ∀ v?, FieldTable.find? (("variant", .text) :: (match v? with
      | some v => (Scope.variant v).fields
      | none => [])) "entity" = none := by
    rintro (_ | v)
    · rfl
    · cases v <;> rfl
  have hrest := ha.without (hentity _)
  refine same_tagged (hrest "variant" .text List.lookup_cons_self) steady_variant fun t v ht' hv => ?_
  rw [Json.valuesOf_without (by decide)] at ht'
  rw [tag?_eq ht' hv] at hrest
  exact Application.same_ofFields (hrest.without (by cases v <;> rfl))

/-- An object holds the record that it becomes when it is rearranged, or none if that holds none. -/
theorem same_decode (h : Rearranged (.object (fieldsOf ms)) (.object ms) (.object ns)) :
    Same (decode (.object ms)) (decode (.object ns)) := by
  have ha := h.agree
  have hentity : FieldTable.find? (fieldsOf ms) "entity" = some .text := by
    unfold fieldsOf
    split <;> exact List.lookup_cons_self
  refine same_tagged (ha "entity" .text hentity) steady_table fun t table ht htable => ?_
  have htag := tag?_eq ht htable
  cases table with
  | account =>
      have hfields : fieldsOf ms = ("entity", .text) :: accountFields := by rw [fieldsOf, htag]
      exact (Account.steadyOn.object ((hfields ▸ ha).without rfl)).map _
  | user =>
      have hfields : fieldsOf ms = ("entity", .text) :: userFields := by rw [fieldsOf, htag]
      exact (User.steadyOn.object ((hfields ▸ ha).without rfl)).map _
  | application => exact (same_application htag ha).map _

/-- Texts of objects of which one is the other rearranged hold the same record, or both hold none: the order
of members at any depth is immaterial, those of the tags included, and so are members that the record does
not know. -/
theorem parse_rearranged {s t : List Char} (hs : Json.parse? s = some (.object ms))
    (ht : Json.parse? t = some (.object ns)) (h : Rearranged (.object (fieldsOf ms)) (.object ms) (.object ns))
    (r : Record) : parse s = .ok r ↔ parse t = .ok r := by
  rw [parse, parse, hs, ht, mapError_eq_ok_iff, mapError_eq_ok_iff]
  exact same_decode h r

end Record

end RecordSearch

import RecordSearch.Proofs.Field
import RecordSearch.Proofs.Predicate.Typing
import RecordSearch.Proofs.Record.Content
import RecordSearch.Predicate.Eval
import RecordSearch.Record.Basic
import RecordSearch.Store.Sql

/-!
# Tables of fields and stored records

A path that a scope accepts leads, in the stored form of every record of the scope, to a value of the
declared type, unless it passes an optional field without a value.
-/

namespace RecordSearch

/-- The names of the fields that a record may have no value for. -/
def optionalFields : List String :=
  ["account", "templateId", "submittedTime", "approvalTime", "finalComment", "referredBy"]

/-- The form in which values of a type are stored. -/
inductive Json.HasShape : Json → FieldType → Prop
  | text (s : String) : HasShape (.string s) .text
  | integer (n : Int) (h : -0x8000000000000000 ≤ n ∧ n < 0x8000000000000000) :
      HasShape (.number (.integer n)) .integer
  | boolean (b : Bool) : HasShape (.bool b) .boolean
  | enum {names : List String} {name : String} (h : name ∈ names) : HasShape (.string name) (.enum names)
  | timestamp (t : Timestamp) : HasShape (.string t.render) .timestamp
  | object (ms : List Json.Member) (fields : FieldTable) : HasShape (.object ms) (.object fields)
  | list {xs : List Json} {element : FieldType} (h : ∀ x ∈ xs, HasShape x element) :
      HasShape (.array xs) (.list element)

namespace Content

/-- The content is of the type: an object holds every field of its table, and only optional ones have no
value; it may hold further fields. -/
inductive HasType : Content → FieldType → Prop
  | scalar {v : Value} {type : FieldType} (h : v.HasType type) : HasType (.scalar v) type
  | object {fields : List (String × Content)} {table : FieldTable}
      (distinct : (fields.map (·.1)).Nodup)
      (present : ∀ name type, FieldTable.find? table name = some type → ∃ c, fields.lookup name = some c)
      (missing : ∀ name, fields.lookup name = some .missing → name ∈ optionalFields)
      (typed : ∀ name type c, FieldTable.find? table name = some type → fields.lookup name = some c →
        c ≠ .missing → HasType c type) :
      HasType (.object fields) (.object table)
  | list {cs : List Content} {element : FieldType} (h : ∀ c ∈ cs, HasType c element) :
      HasType (.list cs) (.list element)

/-- The path goes through an optional field that has no value. -/
def Lacks (c : Content) (path : List String) : Prop :=
  ∃ before name after fields, path = before ++ name :: after ∧ name ∈ optionalFields ∧
    c.read before = some (.object fields) ∧ fields.lookup name = some .missing

theorem HasType.ne_missing {c : Content} {type : FieldType} (h : c.HasType type) : c ≠ .missing := by
  cases h <;> simp

theorem HasType.exists_scalar {c : Content} {type : FieldType} {w : Value} (h : c.HasType type)
    (hw : w.HasType type) : ∃ v, c = .scalar v ∧ v.HasType type := by
  cases h with
  | scalar hv => exact ⟨_, rfl, hv⟩
  | object => exact absurd hw Value.not_hasType_object
  | list => exact absurd hw Value.not_hasType_list

theorem HasType.exists_list {c : Content} {element : FieldType} (h : c.HasType (.list element)) :
    ∃ cs, c = .list cs ∧ ∀ e ∈ cs, HasType e element := by
  cases h with
  | scalar hv => exact absurd hv Value.not_hasType_list
  | list he => exact ⟨_, rfl, he⟩

theorem read_append (first last : List String) (c : Content) :
    c.read (first ++ last) = (c.read first).bind (read last) := by
  induction first generalizing c with
  | nil => rfl
  | cons name first ih =>
      cases c with
      | object fields =>
          simp only [List.cons_append, read]
          cases fields.lookup name with
          | none => rfl
          | some inner => exact ih inner
      | _ => rfl

theorem Lacks.read_ne {c : Content} {path : List String} (h : c.Lacks path) (v : Value) :
    c.read path ≠ some (.scalar v) := by
  obtain ⟨before, name, after, fields, rfl, _, hbefore, hmissing⟩ := h
  rw [read_append, hbefore, Option.bind_some, read, hmissing, Option.bind_some]
  cases after <;> simp [read]

theorem HasType.hasShape {c : Content} {type : FieldType} (h : c.HasType type) : c.toJson.HasShape type := by
  induction h with
  | @scalar v type h =>
      cases v <;> cases type <;> simp only [Value.HasType] at h
      · exact .text _
      · exact .integer _ ⟨Int64.le_toInt _, Int64.toInt_lt _⟩
      · exact .boolean _
      · exact .enum h
      · exact .timestamp _
  | object => exact .object _ _
  | list _ ih =>
      rw [toJson_list]
      refine .list fun x hx => ?_
      obtain ⟨c, hc, rfl⟩ := List.mem_map.mp hx
      exact ih c hc

theorem toJson_eq_null_iff {c : Content} : c.toJson = .null ↔ c = .missing := by
  cases c with
  | scalar v => cases v <;> simp [toJson, Value.toJson, int64Json, timestampJson, Json.ofInt]
  | _ => simp [toJson]

/-! ## Members -/

/-- The stored form, if there is any. -/
def stored? : Content → Option Json
  | .missing => none
  | c => some c.toJson

theorem stored?_of_ne {c : Content} (h : c ≠ .missing) : c.stored? = some c.toJson := by
  cases c with
  | missing => exact absurd rfl h
  | _ => rfl

variable {fields : List (String × Content)} {name : String} {path : List String}

theorem lookup_membersOf (hd : (fields.map (·.1)).Nodup) :
    (membersOf fields).lookup name = (fields.lookup name).bind stored? := by
  induction fields with
  | nil => rfl
  | cons f fields ih =>
      obtain ⟨n, c⟩ := f
      obtain ⟨hn, hrest⟩ := List.nodup_cons.mp hd
      by_cases hc : c = .missing
      · subst hc
        rw [membersOf_missing, ih hrest]
        by_cases e : name = n
        · subst e
          have hl : fields.lookup name = none := by
            rw [List.lookup_eq_none_iff]
            intro f hf
            have hne : name ≠ f.1 := fun e => hn (List.mem_map.mpr ⟨f, hf, e.symm⟩)
            exact bne_iff_ne.mpr hne
          simp [hl, stored?]
        · simp [List.lookup_cons, beq_eq_false_iff_ne.mpr e]
      · rw [membersOf_cons hc]
        by_cases e : name = n
        · subst e
          simp [stored?_of_ne hc]
        · simp [List.lookup_cons, beq_eq_false_iff_ne.mpr e, ih hrest]

/-- No member of a stored form is null, so that the first member of a name is the one that counts. -/
theorem findMember_membersOf : Json.findMember name (membersOf fields) = (membersOf fields).lookup name := by
  induction fields with
  | nil => rfl
  | cons f fields ih =>
      obtain ⟨n, c⟩ := f
      by_cases hc : c = .missing
      · subst hc
        exact ih
      · have hn : c.toJson.isNull = false := by
          rw [Bool.eq_false_iff, ne_eq, Json.isNull_iff, toJson_eq_null_iff]
          exact hc
        rw [membersOf_cons hc, Json.findMember, ih]
        by_cases e : name = n
        · simp [e, hn]
        · simp [List.lookup_cons, beq_eq_false_iff_ne.mpr e, Ne.symm e]

theorem lookup_object (hd : (fields.map (·.1)).Nodup) :
    Json.lookup (name :: path) (object fields).toJson =
      ((fields.lookup name).bind stored?).bind (Json.lookup path) := by
  rw [toJson_object, Json.lookup, Json.member?, findMember_membersOf, lookup_membersOf hd]

theorem descend_object (hd : (fields.map (·.1)).Nodup) :
    Sql.descend (name :: path) (object fields).toJson =
      ((fields.lookup name).bind stored?).bind (Sql.descend path) := by
  rw [toJson_object, Sql.descend, Sql.memberOf, lookup_membersOf hd]

/-! ## Paths -/

/-- At the path the stored form has that of a content of the type, both for a reader that passes over
nulls and for one that does not; or it has nothing, and the path passes a field without a value. -/
def Follows (c : Content) (path : List String) (type : FieldType) : Prop :=
  (∃ found, c.read path = some found ∧ found.HasType type ∧
    Json.lookup path c.toJson = some found.toJson ∧ Sql.descend path c.toJson = some found.toJson) ∨
  (Json.lookup path c.toJson = none ∧ Sql.descend path c.toJson = none ∧ c.Lacks path)

theorem HasType.follows_nil {c : Content} {type : FieldType} (h : c.HasType type) : c.Follows [] type := by
  have hn : c.toJson.isNull = false := by
    rw [Bool.eq_false_iff, ne_eq, Json.isNull_iff, toJson_eq_null_iff]
    exact h.ne_missing
  exact .inl ⟨c, rfl, h, by simp [Json.lookup, hn], rfl⟩

/-- One step of a path: what a field of an object follows, the object follows under its name. -/
theorem Follows.cons {c : Content} {type : FieldType} (hd : (fields.map (·.1)).Nodup)
    (hl : fields.lookup name = some c) (hn : c ≠ .missing) (h : c.Follows path type) :
    (object fields).Follows (name :: path) type := by
  rcases h with ⟨found, hr, ht, hj, hs⟩ | ⟨hj, hs, before, optional, after, inner, rfl, ho, hb, hm⟩
  · refine .inl ⟨found, ?_, ht, ?_, ?_⟩
    · simpa [read, hl] using hr
    · simpa [lookup_object hd, hl, stored?_of_ne hn] using hj
    · simpa [descend_object hd, hl, stored?_of_ne hn] using hs
  · refine .inr ⟨?_, ?_, name :: before, optional, after, inner, rfl, ho, ?_, hm⟩
    · simpa [lookup_object hd, hl, stored?_of_ne hn] using hj
    · simpa [descend_object hd, hl, stored?_of_ne hn] using hs
    · simpa [read, hl] using hb

theorem Follows.of_missing {type : FieldType} (hd : (fields.map (·.1)).Nodup)
    (hl : fields.lookup name = some .missing) (ho : name ∈ optionalFields) :
    (object fields).Follows (name :: path) type := by
  refine .inr ⟨?_, ?_, [], name, path, fields, rfl, ho, rfl, hl⟩
  · simp [lookup_object hd, hl, stored?]
  · simp [descend_object hd, hl, stored?]

/-- Inside a field of an object a path is followed as it is in every content of the type of the field. -/
theorem HasType.follows_cons {c : Content} {table : FieldTable} {type inner : FieldType}
    (hc : c.HasType (.object table)) (hf : FieldTable.find? table name = some inner)
    (h : ∀ c : Content, c.HasType inner → c.Follows path type) : c.Follows (name :: path) type := by
  cases hc with
  | scalar hv => exact absurd hv Value.not_hasType_object
  | object hd hp hm ht =>
      obtain ⟨c, hl⟩ := hp _ _ hf
      by_cases hn : c = .missing
      · subst hn; exact .of_missing hd hl (hm _ hl)
      · exact .cons hd hl hn (h c (ht _ _ _ hf hl hn))

theorem HasType.follows_of_leadsTo {c : Content} {table : FieldTable} {type : FieldType}
    (hc : c.HasType (.object table)) (h : table.LeadsTo path type) : c.Follows path type := by
  induction h generalizing c with
  | last hf => exact hc.follows_cons hf fun _ h => h.follows_nil
  | into hf _ ih => exact hc.follows_cons hf fun _ h => ih h

theorem HasType.follows {c : Content} {table : FieldTable} {under : List String} {field : Field}
    (hc : c.HasType (.object table)) (h : FieldTable.resolveUnder under table path = .ok field) :
    c.Follows path field.type :=
  hc.follows_of_leadsTo (FieldTable.leadsTo_of_resolveUnder h)

/-! ## Records -/

/-- The fields are those of the table, in the same order, perhaps with further ones behind them. -/
def Aligned : List (String × Content) → FieldTable → Prop
  | _, [] => True
  | [], _ :: _ => False
  | (n, c) :: fields, (m, type) :: table =>
      n = m ∧ (c ≠ .missing → c.HasType type) ∧ Aligned fields table

theorem Aligned.lookup {table : FieldTable} {type : FieldType} (h : Aligned fields table)
    (hf : FieldTable.find? table name = some type) :
    ∃ c, fields.lookup name = some c ∧ (c ≠ .missing → c.HasType type) := by
  fun_induction Aligned fields table with
  | case1 => cases hf
  | case2 => exact h.elim
  | case3 n c fields m type' table ih =>
      obtain ⟨rfl, hc, ht⟩ := h
      by_cases e : name = n
      · subst e
        simp only [FieldTable.find?, List.lookup_cons_self, Option.some.injEq] at hf
        subst hf
        exact ⟨c, List.lookup_cons_self, hc⟩
      · simp only [FieldTable.find?, List.lookup_cons, beq_eq_false_iff_ne.mpr e] at hf ⊢
        exact ih ht hf

theorem Aligned.append {fields more : List (String × Content)} {table further : FieldTable}
    (h : Aligned fields table) (hl : fields.length = table.length) (hm : Aligned more further) :
    Aligned (fields ++ more) (table ++ further) := by
  fun_induction Aligned fields table with
  | case1 fields =>
      obtain rfl := List.length_eq_zero_iff.mp hl
      exact hm
  | case2 => exact h.elim
  | case3 n c fields m type table ih =>
      exact ⟨h.1, h.2.1, ih h.2.2 (by simpa using hl)⟩

theorem Aligned.extend {fields : List (String × Content)} {table : FieldTable} (h : Aligned fields table)
    (hl : fields.length = table.length) (more : List (String × Content)) :
    Aligned (fields ++ more) table := by
  have hm : Aligned more [] := by simp [Aligned]
  simpa using h.append hl hm

theorem hasType_optional {α : Type} {content : α → Content} {o : Option α} {type : FieldType}
    (h : ∀ a, (content a).HasType type) (hn : optional content o ≠ .missing) :
    (optional content o).HasType type := by
  cases o with
  | none => exact absurd rfl hn
  | some a => exact h a

theorem hasType_texts (ts : List String) : (texts ts).HasType (.list .text) := by
  refine .list fun c hc => ?_
  obtain ⟨s, _, rfl⟩ := List.mem_map.mp hc
  exact .scalar trivial

theorem mem_names_of_lookup {α : Type} {xs : List (String × α)} {a : α} (h : xs.lookup name = some a) :
    name ∈ xs.map (·.1) := by
  obtain ⟨before, after, rfl, _⟩ := List.lookup_eq_some_iff.mp h
  simp

/-- An object whose fields are aligned with a table is of its type, with tags before the fields too. -/
theorem HasType.of_aligned (tags fields : List (String × Content)) {table : FieldTable}
    (hd : ((tags ++ fields).map (·.1)).Nodup)
    (hm : ∀ f ∈ tags ++ fields, f.2 = .missing → f.1 ∈ optionalFields) (h : Aligned fields table) :
    (Content.object (tags ++ fields)).HasType (.object table) := by
  have hl : ∀ {name type}, FieldTable.find? table name = some type →
      ∃ c, (tags ++ fields).lookup name = some c ∧ (c ≠ .missing → c.HasType type) := by
    intro name type hf
    obtain ⟨c, hc, ht⟩ := h.lookup hf
    refine ⟨c, ?_, ht⟩
    rw [List.map_append] at hd
    -- The name is that of a field, so no tag has it.
    have hn : tags.lookup name = none := by
      rw [List.lookup_eq_none_iff]
      intro f hf
      have hne : name ≠ f.1 := fun e =>
        (List.nodup_append.mp hd).2.2 _ (List.mem_map_of_mem hf) _ (mem_names_of_lookup hc) e.symm
      exact bne_iff_ne.mpr hne
    rw [List.lookup_append, hn, hc]
    rfl
  refine .object hd (fun name type hf => ?_) (fun name hf => ?_) (fun name type c hf hc hn => ?_)
  · obtain ⟨c, hc, _⟩ := hl hf
    exact ⟨c, hc⟩
  · obtain ⟨before, after, e, _⟩ := List.lookup_eq_some_iff.mp hf
    exact hm (name, .missing) (by rw [e]; simp) rfl
  · obtain ⟨c', hc', ht⟩ := hl hf
    rw [hc] at hc'
    cases hc'
    exact ht hn

end Content

open Content

theorem Account.aligned (a : Account) : Aligned a.contents accountFields :=
  ⟨rfl, fun _ => .scalar trivial, rfl, fun _ => .scalar trivial, rfl, fun _ => .scalar trivial, trivial⟩

theorem Account.hasType (a : Account) : (Content.object a.contents).HasType (.object accountFields) := by
  have hn : a.contents.map (·.1) = accountFields.map (·.1) := rfl
  exact HasType.of_aligned [] a.contents (by rw [List.nil_append, hn]; decide) (by simp [contents])
    a.aligned

theorem Role.hasType (r : Role) : (Content.object r.contents).HasType (.object roleFields) := by
  have hn : r.contents.map (·.1) = roleFields.map (·.1) := rfl
  refine HasType.of_aligned [] r.contents (by rw [List.nil_append, hn]; decide) (by simp [contents]) ?_
  exact ⟨rfl, fun _ => .scalar trivial, rfl, fun _ => .scalar trivial, rfl, fun _ => .scalar trivial,
    rfl, fun _ => .scalar trivial, trivial⟩

theorem User.aligned (u : User) : Aligned u.contents userFields :=
  ⟨rfl, fun _ => .scalar trivial, rfl, fun _ => .scalar trivial, rfl, fun _ => .scalar trivial,
    rfl, hasType_optional Account.hasType, rfl, fun _ => u.role.hasType, trivial⟩

theorem User.hasType (u : User) : (Content.object u.contents).HasType (.object userFields) := by
  have hn : u.contents.map (·.1) = userFields.map (·.1) := rfl
  exact HasType.of_aligned [] u.contents (by rw [List.nil_append, hn]; decide)
    (by simp [contents, optionalFields]) u.aligned

theorem CommitteeMember.hasType (m : CommitteeMember) :
    (Content.object m.contents).HasType (.object committeeMemberFields) := by
  have hn : m.contents.map (·.1) = committeeMemberFields.map (·.1) := rfl
  refine HasType.of_aligned [] m.contents (by rw [List.nil_append, hn]; decide) (by simp [contents]) ?_
  exact ⟨rfl, fun _ => .scalar trivial, rfl, fun _ => .scalar trivial, rfl, fun _ => m.user.hasType,
    rfl, fun _ => .scalar trivial, trivial⟩

theorem ApplicationCommon.aligned (a : ApplicationCommon) : Aligned a.contents draftFields :=
  ⟨rfl, fun _ => .scalar trivial, rfl, fun _ => .scalar trivial, rfl, fun _ => a.user.hasType,
    rfl, fun _ => .scalar a.status.name_mem_names, rfl, hasType_optional fun _ => .scalar trivial,
    rfl, fun _ => .scalar trivial, trivial⟩

/-- The fields that a submission adds to those of a draft. -/
def submissionFields : FieldTable := submittedFields.drop draftFields.length

/-- The fields that a referral adds to those of a submitted application. -/
def referralFields : FieldTable := referredFields.drop submittedFields.length

theorem Submission.aligned (s : Submission) : Aligned s.contents submissionFields := by
  refine ⟨rfl, fun _ => .list fun c hc => ?_, rfl, fun _ => hasType_texts _, rfl,
    hasType_optional fun _ => .scalar trivial, rfl, hasType_optional fun _ => .scalar trivial, rfl,
    hasType_optional fun _ => .scalar trivial, trivial⟩
  obtain ⟨m, _, rfl⟩ := List.mem_map.mp hc
  exact m.hasType

theorem Referral.aligned (r : Referral) : Aligned r.contents referralFields :=
  ⟨rfl, fun _ => hasType_texts _, rfl, hasType_optional User.hasType, trivial⟩

theorem Application.aligned (a : Application) :
    Aligned a.contents (Scope.variant a.variant).fields := by
  cases a with
  | draft common => exact common.aligned
  | submitted common submission => exact common.aligned.append rfl submission.aligned
  | referred common submission referral =>
      exact common.aligned.append rfl (submission.aligned.append rfl referral.aligned)

theorem Application.aligned_draftFields (a : Application) : Aligned a.contents draftFields := by
  cases a with
  | draft common => exact common.aligned
  | submitted common submission => exact common.aligned.extend rfl _
  | referred common submission referral => exact common.aligned.extend rfl _

namespace Record

theorem names_nodup (r : Record) : ((r.tags ++ r.contents).map (·.1)).Nodup := by
  cases r with
  | account a =>
      have hn : (tags (.account a) ++ a.contents).map (·.1) = "entity" :: accountFields.map (·.1) := rfl
      rw [contents, hn]
      decide
  | user u =>
      have hn : (tags (.user u) ++ u.contents).map (·.1) = "entity" :: userFields.map (·.1) := rfl
      rw [contents, hn]
      decide
  | application a =>
      have hn : (tags (.application a) ++ a.contents).map (·.1) =
          "entity" :: "variant" :: (Scope.variant a.variant).fields.map (·.1) := by cases a <;> rfl
      rw [contents, hn]
      cases a.variant <;> decide

theorem missing_mem_optionalFields (r : Record) :
    ∀ f ∈ r.tags ++ r.contents, f.2 = .missing → f.1 ∈ optionalFields := by
  cases r with
  | account a => simp [tags, contents, Account.contents]
  | user u => simp [tags, contents, User.contents, optionalFields]
  | application a =>
      cases a <;>
        simp [tags, contents, Application.contents, ApplicationCommon.contents, Submission.contents,
          Referral.contents, texts, optionalFields]

/-- The content of a record is of the type that each scope of the record declares. -/
theorem content_hasType {r : Record} {scope : Scope} (h : r.inScope scope = true) :
    r.content.HasType (.object scope.fields) := by
  refine HasType.of_aligned r.tags r.contents r.names_nodup r.missing_mem_optionalFields ?_
  cases r with
  | account a =>
      cases scope <;> simp [inScope, table, Scope.table, Scope.variant?, variant?] at h
      exact a.aligned
  | user u =>
      cases scope <;> simp [inScope, table, Scope.table, Scope.variant?, variant?] at h
      exact u.aligned
  | application a =>
      cases scope <;> simp [inScope, table, Scope.table, Scope.variant?, variant?] at h
      · exact a.aligned_draftFields
      · subst h
        exact a.aligned

variable {r : Record} {scope : Scope} {path : List String} {field : Field}

/-- In the stored form of a record a field of the scope has what the record holds there; or it has nothing,
and its path goes through an optional field without a value. -/
theorem found_of_resolve (hr : r.inScope scope = true) (h : scope.resolve path = .ok field) :
    (∃ c, r.content.read field.path = some c ∧ c.HasType field.type ∧
      Json.lookup field.path r.toJson = some c.toJson ∧
      Sql.descend field.path r.toJson = some c.toJson) ∨
    (Json.lookup field.path r.toJson = none ∧ Sql.descend field.path r.toJson = none ∧
      r.content.Lacks field.path) := by
  rw [FieldTable.path_of_resolve h, ← r.toJson_content]
  exact (content_hasType hr).follows h

/-- A path that a scope accepts leads in the stored form of a record of the scope to the stored form of
what the record holds there, which has the shape of the declared type and is not null; or it leads to
nothing, and then it goes through an optional field without a value. -/
theorem lookup_of_resolve {r : Record} {scope : Scope} {path : List String} {field : Field}
    (hr : r.inScope scope = true) (h : scope.resolve path = .ok field) :
    (∃ c, r.content.read path = some c ∧ c.HasType field.type ∧
      Json.lookup field.path r.toJson = some c.toJson ∧
      Sql.descend field.path r.toJson = some c.toJson ∧
      c.toJson.HasShape field.type ∧ c.toJson ≠ .null) ∨
    (Json.lookup field.path r.toJson = none ∧ Sql.descend field.path r.toJson = none ∧
      r.content.Lacks path) := by
  rw [FieldTable.path_of_resolve h, ← r.toJson_content]
  rcases (content_hasType hr).follows h with ⟨c, hc, ht, hj, hs⟩ | hn
  · exact .inl ⟨c, hc, ht, hj, hs, ht.hasShape, fun e => ht.ne_missing (toJson_eq_null_iff.mp e)⟩
  · exact .inr hn

theorem lookup_of_resolve_user :
    let r : Record := .user ⟨"al", "Al", "", none, ⟨7, "admin", "", true⟩⟩
    r.inScope .users = true ∧
      Scope.users.resolve ["role", "id"] = .ok ⟨["role", "id"], .integer⟩ ∧
      (∃ c : Content, c.HasType .integer ∧ Json.lookup ["role", "id"] r.toJson = some c.toJson) ∧
      Scope.users.resolve ["account", "email"] = .ok ⟨["account", "email"], .text⟩ ∧
      r.content.Lacks ["account", "email"] := by
  intro r
  have hr : r.inScope .users = true := rfl
  have hid : Scope.users.resolve ["role", "id"] = .ok ⟨["role", "id"], .integer⟩ := rfl
  have hemail : Scope.users.resolve ["account", "email"] = .ok ⟨["account", "email"], .text⟩ := rfl
  refine ⟨hr, hid, ?_, hemail, ?_⟩
  · rcases lookup_of_resolve hr hid with ⟨c, _, ht, hj, _⟩ | ⟨hn, _⟩
    · exact ⟨c, ht, hj⟩
    · cases hn
  · rcases lookup_of_resolve hr hemail with ⟨c, hc, _⟩ | ⟨_, _, hl⟩
    · cases hc
    · exact hl

end Record

end RecordSearch

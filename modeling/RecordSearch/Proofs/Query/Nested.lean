import RecordSearch.Proofs.Field
import RecordSearch.Proofs.Query.Bounds
import RecordSearch.Proofs.Query.Equality
import RecordSearch.Proofs.Query.Renaming

/-!
# Users inside applications

The fields of the user of an application are named in a search of applications as they are in a search of
users, with `user` before the path. Public keys are an exception: a segment that is one of them stands for
something else inside the user, too. It is the number of the role that is not found under its own name for
this reason.
-/

namespace RecordSearch

/-! ## Tables of fields -/

mutual

/-- The paths through a table of fields and the tables inside it. -/
def FieldTable.paths : List (String × FieldType) → List (List String)
  | [] => []
  | (name, type) :: fields => [name] :: ((FieldType.paths type).map (name :: ·) ++ FieldTable.paths fields)

def FieldType.paths : FieldType → List (List String)
  | .object fields => FieldTable.paths fields
  | _ => []

end

namespace FieldTable

variable {fields more nested : FieldTable} {path under : List String} {field : Field} {name : String}
  {type : FieldType}

theorem paths_append : paths (fields ++ more) = paths fields ++ paths more := by
  induction fields with
  | nil => rfl
  | cons first fields ih => simp only [List.cons_append, paths, ih, List.append_assoc]

theorem mem_paths_of_find? (h : find? fields name = some type) : [name] ∈ paths fields := by
  obtain ⟨before, after, rfl, _⟩ := List.lookup_eq_some_iff.mp h
  rw [paths_append, paths]
  exact List.mem_append_right _ List.mem_cons_self

theorem mem_paths_of_nested (h : find? fields name = some (.object nested)) (hp : path ∈ paths nested) :
    name :: path ∈ paths fields := by
  obtain ⟨before, after, rfl, _⟩ := List.lookup_eq_some_iff.mp h
  rw [paths_append, paths]
  exact List.mem_append_right _ (List.mem_cons_of_mem _ (List.mem_append_left _ (List.mem_map_of_mem hp)))

theorem LeadsTo.mem_paths (h : LeadsTo fields path type) : path ∈ paths fields := by
  induction h with
  | last hfind => exact mem_paths_of_find? hfind
  | into hfind _ ih => exact mem_paths_of_nested hfind ih

theorem mem_paths_of_resolveUnder (h : resolveUnder under fields path = .ok field) : path ∈ paths fields :=
  (leadsTo_of_resolveUnder h).mem_paths

/-- A path that resolves in the table of a field resolves behind the name of the field. -/
theorem resolve_under (hn : find? fields name = some (.object nested)) (h : resolve nested path = .ok field) :
    resolve fields (name :: path) = .ok (field.under name) := by
  obtain ⟨hleads, rfl⟩ := resolve_eq_ok_iff.mp h
  exact resolve_eq_ok_iff.mpr ⟨.into hn hleads, rfl⟩

end FieldTable

/-! ## Operators -/

namespace Operator

variable {field : Field} {value : Value} {p : Predicate} {name literal : String}

/-- The operator makes the same predicate of a field and a value wherever the record with the field is held,
whatever else the criteria say. -/
def Relocates (o : Operator) : Prop :=
  ∀ {field : Field} {c other : Criterion} {p : Predicate} (name : String), other.value = c.value →
    o.operate field c = .ok (.restricted p) →
      o.operate (field.under name) other = .ok (.restricted (p.under name))

theorem equalTo_under (h : equalTo field value = .ok (.restricted p)) :
    equalTo (field.under name) value = .ok (.restricted (p.under name)) := by
  obtain ⟨v, hv, hp⟩ := bind_eq_ok_iff.mp h
  cases hp
  exact bind_eq_ok_iff.mpr ⟨v, hv, rfl⟩

theorem like_or_equalTo_under {pattern : String} {ignoreCase : Bool}
    (h : (if field.type.isText then .ok (.restricted (.like field pattern ignoreCase))
      else equalTo field value) = .ok (.restricted p)) :
    (if field.type.isText then .ok (.restricted (.like (field.under name) pattern ignoreCase))
      else equalTo (field.under name) value) = .ok (.restricted (p.under name)) := by
  split at h
  · next ht =>
    cases h
    exact if_pos ht
  · next ht => exact (if_neg ht).trans (equalTo_under h)

theorem relocates_ofValue {make : Field → Value → Except Cause Filter}
    (h : ∀ {field value p} name, make field value = .ok (.restricted p) →
      make (Field.under name field) value = .ok (.restricted (p.under name))) :
    (ofValue literal make).Relocates := by
  intro field c other p name hvalue hmake
  rw [operate_ofValue] at hmake ⊢
  rw [hvalue]
  exact h name hmake

theorem exists_relocating (h : literal ∈ ["=", ":", ":~"]) :
    ∃ o, Registry.standard.get? literal = some o ∧ o.Relocates := by
  simp only [List.mem_cons, List.not_mem_nil, or_false] at h
  rcases h with rfl | rfl | rfl
  · exact ⟨.equals, rfl, relocates_ofValue fun _ => equalTo_under⟩
  · exact ⟨.like, rfl, relocates_ofValue fun _ => like_or_equalTo_under⟩
  · exact ⟨.ignoreCase, rfl, relocates_ofValue fun _ => like_or_equalTo_under⟩

end Operator

/-! ## Records -/

/-- The user of an application is stored in it as a user is, without the name of the table. -/
theorem Application.member?_user (a : Application) :
    (Record.application a).toJson.member? "user" = some a.common.user.toJson := by
  cases a <;> rfl

theorem User.lookup_toJson (u : User) {name : String} (h : name ≠ "entity") (path : List String) :
    Json.lookup (name :: path) (Record.user u).toJson = Json.lookup (name :: path) u.toJson := by
  have hne : ¬ ("entity" = name ∧ ¬ (Json.string "user").isNull) := fun he => h he.1.symm
  rw [Json.lookup, Json.lookup, Record.toJson, Json.member?, Json.findMember, if_neg hne]
  rfl

/-- A test on fields of users says the same of an application, with `user` before the paths, as of its
user. -/
theorem Application.eval_under_user (a : Application) {p : Predicate}
    (h : ∀ field ∈ p.fields, field.path ∈ FieldTable.paths userFields) :
    (p.under "user").eval (Record.application a).toJson = p.eval (Record.user a.common.user).toJson := by
  rw [Predicate.eval_under a.member?_user]
  refine Predicate.eval_congr fun field hf => ?_
  have hplain : ∀ path ∈ FieldTable.paths userFields, path ≠ [] ∧ path.head? ≠ some "entity" := by decide
  obtain ⟨hne, hhead⟩ := hplain field.path (h field hf)
  cases hpath : field.path with
  | nil => exact absurd hpath hne
  | cons name path =>
      rw [hpath] at hhead
      exact (a.common.user.lookup_toJson (fun e => hhead (congrArg some e)) path).symm

/-! ## Keys -/

/-- A key behind a segment and a dot is written as the segment and then the path of the key. -/
theorem writtenPath_append {name : String} (h : '.' ∉ name.toList) (key : String) :
    writtenPath (name ++ "." ++ key) = name :: writtenPath key := by
  have htext : (name ++ "." ++ key).toList = name.toList ++ '.' :: key.toList := by simp
  rw [writtenPath, htext, Text.segments_append h, List.map_cons, String.ofList_toList]
  rfl

namespace Entity

variable {entity : Entity} {key literal : String} {value : Value} {p : Predicate} {field : Field}
  {byOr : Bool}

/-- The public keys that stand for another field in some kind of records. -/
def publicKeys : List String := ["id", "dbId", "assigned"]

theorem mappedKey_eq (entity : Entity) (h : key ∉ publicKeys) : entity.descriptor.mappedKey key = key := by
  simp only [publicKeys, List.mem_cons, List.not_mem_nil, or_false, not_or] at h
  have hid : (key == "id") = false := beq_eq_false_iff_ne.mpr h.1
  have hdbId : (key == "dbId") = false := beq_eq_false_iff_ne.mpr h.2.1
  have hassigned : (key == "assigned") = false := beq_eq_false_iff_ne.mpr h.2.2
  cases entity <;>
    simp [descriptor, applicationDescriptor, withAssigned, Descriptor.mappedKey, Descriptor.override,
      Descriptor.rename, Descriptor.convert, Descriptor.narrowTo, Dictionary.get?, Dictionary.insert,
      List.lookup_cons, hid, hdbId, hassigned]

theorem not_mem_publicKeys_of_dotted (h : '.' ∈ key.toList) : key ∉ publicKeys := by
  have hundotted : ∀ k ∈ publicKeys, '.' ∉ k.toList := by decide
  exact fun hkey => hundotted key hkey h

/-- A key of the user inside an application. -/
theorem writtenPath_user (key : String) : writtenPath ("user." ++ key) = "user" :: writtenPath key :=
  @writtenPath_append "user" (by decide) key

theorem dot_mem_user (key : String) : '.' ∈ ("user." ++ key).toList := by
  simp

/-- A key of users without public keys among its segments is followed behind `user` as it is written. -/
theorem pathOf_user (entity : Entity) (h : ∀ segment ∈ writtenPath key, segment ∉ publicKeys) :
    entity.descriptor.pathOf (entity.descriptor.mappedKey ("user." ++ key)) = "user" :: writtenPath key := by
  rw [mappedKey_eq _ (not_mem_publicKeys_of_dotted (dot_mem_user key)), ← writtenPath_user,
    Descriptor.pathOf_eq_writtenPath_iff]
  intro _ segment hs
  rw [writtenPath_user, List.mem_cons] at hs
  rcases hs with rfl | hs
  · exact mappedKey_eq _ (by decide)
  · exact mappedKey_eq _ (h segment hs)

/-- What it takes for a criterion to compile in a search of users. -/
theorem exists_of_compiles_users (hl : literal ∈ ["=", ":", ":~"])
    (hc : users.Compiles ⟨key, literal, value, byOr⟩ (.restricted p)) :
    ∃ field o, Scope.users.resolve (writtenPath key) = .ok field ∧ Registry.standard.get? literal = some o ∧
      o.Relocates ∧ o.operate field ⟨key, literal, value, byOr⟩ = .ok (.restricted p) := by
  obtain ⟨o, ho, hrelocates⟩ := Operator.exists_relocating hl
  have hpath : users.descriptor.pathOf key = writtenPath key :=
    Descriptor.pathOf_eq_writtenPath_iff.mpr fun _ _ _ => rfl
  obtain ⟨converted, field, hconvert, hfield, hoperate⟩ :=
    (compile_registered_iff (users.supports_equality hl) rfl ho).mp hc
  cases hconvert
  exact ⟨field, o, hpath ▸ hfield, ho, hrelocates, hoperate⟩

/-- A key that is followed in applications to the user, and then as a key of users, compiles as that one
does. -/
theorem compiles_in_user {other : String} (ha : entity.IsApplication) (hl : literal ∈ ["=", ":", ":~"])
    (hpath : entity.descriptor.pathOf (entity.descriptor.mappedKey other) = "user" :: writtenPath key)
    (hc : users.Compiles ⟨key, literal, value, byOr⟩ (.restricted p)) :
    entity.Compiles ⟨other, literal, value, byOr⟩ (.restricted (p.under "user")) := by
  obtain ⟨field, o, hfield, ho, hrelocates, hoperate⟩ := exists_of_compiles_users hl hc
  have hstatus : entity.descriptor.mappedKey other ≠ "status" := by
    intro h
    rw [h, Descriptor.pathOf_of_not_mem (by decide)] at hpath
    exact absurd (List.cons.inj hpath).1 (by decide)
  have huser : FieldTable.find? entity.descriptor.scope.fields "user" = some (.object userFields) := by
    rcases ha.cases with rfl | rfl | rfl | rfl <;> rfl
  have hliteral : literal ≠ ":=" := by
    rintro rfl
    exact absurd hl (by decide)
  refine (compile_registered_iff (entity.supports_equality hl) (entity.overrides_eq_none _ hliteral) ho).mpr
    ⟨value, field.under "user", entity.convertValue_eq hstatus value, ?_, ?_⟩
  · rw [hpath]
    exact FieldTable.resolve_under huser hfield
  · refine hrelocates "user" ?_ hoperate
    rfl

/-- The only field of users with a public key in its path is the number of the role. -/
theorem writtenPath_cases (h : Scope.users.resolve (writtenPath key) = .ok field) :
    (∀ segment ∈ writtenPath key, segment ∉ publicKeys) ∨ key = "role.id" := by
  have hpaths : ∀ path ∈ FieldTable.paths userFields,
      (∀ segment ∈ path, segment ∉ publicKeys) ∨ path = ["role", "id"] := by decide
  exact (hpaths _ (FieldTable.mem_paths_of_resolveUnder h)).imp_right fun hpath =>
    writtenPath_inj (hpath.trans (by decide))

/-- If a criterion on a key, with an operator for equality or parts of texts, compiles in a search of users to
a predicate, then it does in a search of applications, on the key behind `user`, to the predicate with `user`
before each path, which an application satisfies just if its user satisfies the other. Only for the number of
the role that is not so, where `id` is read as another name: the key is refused there, and it is the key
`user.role.dbId` that stands for the number. -/
theorem nested_user (ha : entity.IsApplication) (hl : literal ∈ ["=", ":", ":~"])
    (hc : users.Compiles ⟨key, literal, value, byOr⟩ (.restricted p)) :
    (key ≠ "role.id" →
      entity.Compiles ⟨"user." ++ key, literal, value, byOr⟩ (.restricted (p.under "user"))) ∧
    (key = "role.id" →
      Criterion.compile ⟨"user." ++ key, literal, value, byOr⟩ entity.descriptor .standard =
          .error (.criterion ("user." ++ key) literal (.field (.unknown "applicationId" ["user", "role"]))) ∧
        entity.Compiles ⟨"user.role.dbId", literal, value, byOr⟩ (.restricted (p.under "user"))) ∧
    ∀ a : Application,
      (p.under "user").eval (Record.application a).toJson = p.eval (Record.user a.common.user).toJson := by
  obtain ⟨field, o, hfield, ho, _, hoperate⟩ := exists_of_compiles_users hl hc
  -- The key is followed as it is written, unless a public key is among its segments.
  refine ⟨fun hkey => ?_, ?_, fun a => a.eval_under_user ?_⟩
  · have hpath := entity.pathOf_user ((writtenPath_cases hfield).resolve_right hkey)
    exact compiles_in_user ha hl hpath hc
  · rintro rfl
    have hkey : "user." ++ "role.id" = "user.role.id" := by decide
    have hmapped : entity.descriptor.mappedKey "user.role.id" = "user.role.id" :=
      entity.mappedKey_eq (by decide)
    rw [hkey]
    refine ⟨Criterion.compile_of_unresolved (entity.supports_equality hl) ?_
      (entity.convertValue_eq ?_ value), compiles_in_user ha hl ?_ hc⟩
    · rw [hmapped]
      rcases ha.cases with rfl | rfl | rfl | rfl <;> rfl
    · rw [hmapped]
      decide
    · rcases ha.cases with rfl | rfl | rfl | rfl <;> rfl
  · intro f hf
    rw [Registry.standard_testsItsField ho hoperate, List.mem_singleton] at hf
    rw [hf, FieldTable.path_of_resolve hfield]
    exact FieldTable.mem_paths_of_resolveUnder hfield

/-- The name of a role, asked of users and of the users of applications. -/
theorem nested_user_role :
    let admin : User := ⟨"al", "Al", "", none, ⟨7, "admin", "", false⟩⟩
    let a : Application := .draft ⟨1, "A-1", admin, .draft, none,
      .midnight { year := 2024, month := 3, day := 15 }⟩
    ∃ p, users.compile "role.name=admin" false = .ok (.users, .restricted p) ∧
      applications.compile "user.role.name=admin" false = .ok (.applications, .restricted (p.under "user")) ∧
      p.eval (Record.user admin).toJson = true ∧
      (p.under "user").eval (Record.application a).toJson = true := by
  intro admin a
  let p : Predicate := .equals ⟨["role", "name"], .text⟩ (.text "admin")
  have hc : users.Compiles ⟨"role.name", "=", .text "admin", false⟩ (.restricted p) := rfl
  obtain ⟨hnested, _, heval⟩ := @nested_user .applications "role.name" "=" _ p false rfl (by decide) hc
  have hadmin : p.eval (Record.user admin).toJson = true := rfl
  have husers := (@compile_single_iff .users "role.name" "=" "admin" _ (by decide) false).mpr hc
  have happlications :=
    (@compile_single_iff .applications "user.role.name" "=" "admin" _ (by decide) false).mpr
      (hnested (by decide))
  refine ⟨p, husers, happlications, hadmin, ?_⟩
  rw [heval]
  exact hadmin

/-- A search of users by the number of the role compiles. A search of applications asks for a field of the
role by the name that `id` stands for in applications, and is refused. -/
theorem nested_number_refused :
    (∃ p, users.Compiles ⟨"role.id", "=", .text "7", false⟩ (.restricted p) ∧
      ¬ applications.Compiles ⟨"user.role.id", "=", .text "7", false⟩ (.restricted (p.under "user"))) ∧
    applications.compile "user.role.id=7" false =
      .error (.criterion "user.role.id" "=" (.field (.unknown "applicationId" ["user", "role"]))) := by
  have hrefused : Criterion.compile ⟨"user.role.id", "=", .text "7", false⟩ applications.descriptor .standard =
      .error (.criterion "user.role.id" "=" (.field (.unknown "applicationId" ["user", "role"]))) := rfl
  have hc : users.Compiles ⟨"role.id", "=", .text "7", false⟩
      (.restricted (.equals ⟨["role", "id"], .integer⟩ (.integer 7))) := rfl
  refine ⟨⟨_, hc, fun h => ?_⟩, ?_⟩
  · rw [Compiles, hrefused] at h
    cases h
  · refine (@compile_single .applications "user.role.id" "=" "7" (by decide) false).trans ?_
    rw [hrefused]
    rfl

end Entity

end RecordSearch

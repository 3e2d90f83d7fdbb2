import RecordSearch.Record.Fields

/-!
# Paths through tables of fields

Where a path leads in a table of fields, apart from the names that led to the table and from the refusals of
the paths that lead nowhere. A path resolves just if it leads somewhere, and it can be cut between any two of
its names: it passes through an object there, and is continued in the table of the object.
-/

namespace RecordSearch.FieldTable

/-- The path leads to a field of the type: its last name is that of the field, and the others are names of
objects in each other's tables. Of fields with the same name the first one counts. -/
inductive LeadsTo : FieldTable → List String → FieldType → Prop
  | last {fields : FieldTable} {name : String} {type : FieldType} (h : find? fields name = some type) :
      LeadsTo fields [name] type
  | into {fields nested : FieldTable} {name : String} {path : List String} {type : FieldType}
      (h : find? fields name = some (.object nested)) (hp : LeadsTo nested path type) :
      LeadsTo fields (name :: path) type

variable {fields nested : FieldTable} {path under first rest : List String} {name next : String}
  {type : FieldType} {field : Field}

theorem LeadsTo.ne_nil (h : LeadsTo fields path type) : path ≠ [] := by
  cases h with
  | last => exact List.cons_ne_nil _ _
  | into => exact List.cons_ne_nil _ _

theorem leadsTo_cons_iff (hp : path ≠ []) :
    LeadsTo fields (name :: path) type ↔
      ∃ nested, find? fields name = some (.object nested) ∧ LeadsTo nested path type := by
  constructor
  · intro h
    cases h with
    | last => exact absurd rfl hp
    | into h hp => exact ⟨_, h, hp⟩
  · rintro ⟨nested, h, hp⟩
    exact .into h hp

/-! ## Resolution -/

theorem resolveUnder_object (h : find? fields name = some (.object nested)) (hp : path ≠ []) :
    resolveUnder under fields (name :: path) = resolveUnder (under ++ [name]) nested path := by
  cases path with
  | nil => exact absurd rfl hp
  | cons segment rest => rw [resolveUnder, h]

theorem leadsTo_of_resolveUnder (h : resolveUnder under fields path = .ok field) :
    LeadsTo fields path field.type := by
  fun_induction resolveUnder under fields path with
  | case1 => cases h
  | case2 _ _ _ _ hfind =>
      cases h
      exact .last hfind
  | case3 => cases h
  | case4 _ _ _ _ _ _ hfind ih => exact .into hfind (ih h)
  | case5 => cases h
  | case6 => cases h

theorem LeadsTo.resolveUnder_eq (h : LeadsTo fields path type) :
    resolveUnder under fields path = .ok ⟨under ++ path, type⟩ := by
  induction h generalizing under with
  | last h => rw [resolveUnder, h]
  | into h hp ih => rw [resolveUnder_object h hp.ne_nil, ih, List.append_assoc, List.singleton_append]

/-- A path resolves just if it leads to a field, and it is kept as it is. -/
theorem resolve_eq_ok_iff :
    resolve fields path = .ok field ↔ LeadsTo fields path field.type ∧ field.path = path := by
  constructor
  · exact fun h => ⟨leadsTo_of_resolveUnder h, path_of_resolve h⟩
  · rintro ⟨h, rfl⟩
    exact h.resolveUnder_eq

/-- Where a path goes on behind a field that is no object, it is refused there. -/
theorem LeadsTo.resolveUnder_behind (h : LeadsTo fields path type) (ht : ∀ nested, type ≠ .object nested) :
    resolveUnder under fields (path ++ next :: rest) = .error (.notNested (under ++ path) type next) := by
  induction h generalizing under with
  | @last fields name type h =>
      rw [List.singleton_append, resolveUnder, h]
      cases type with
      | object nested => exact absurd rfl (ht nested)
      | _ => rfl
  | into h hp ih =>
      have hlong := List.append_ne_nil_of_left_ne_nil hp.ne_nil (next :: rest)
      rw [List.cons_append, resolveUnder_object h hlong, ih ht, List.append_assoc, List.singleton_append]

/-! ## Composition -/

theorem LeadsTo.append (h : LeadsTo fields first (.object nested))
    (hr : LeadsTo nested rest type) : LeadsTo fields (first ++ rest) type := by
  induction first generalizing fields with
  | nil => exact absurd rfl h.ne_nil
  | cons name first ih =>
      cases h with
      | last h => exact .into h hr
      | into h hp => exact .into h (ih hp)

/-- A path can be cut at any place: its first part leads to an object, and the rest leads on in the table of
the object. -/
theorem leadsTo_append_iff (hf : first ≠ []) (hr : rest ≠ []) :
    LeadsTo fields (first ++ rest) type ↔
      ∃ nested, LeadsTo fields first (.object nested) ∧ LeadsTo nested rest type := by
  refine ⟨fun h => ?_, fun ⟨_, hfirst, hrest⟩ => hfirst.append hrest⟩
  -- No name of the first part is the last of the path, so that each is that of an object.
  induction first generalizing fields with
  | nil => exact absurd rfl hf
  | cons name first ih =>
      rw [List.cons_append, leadsTo_cons_iff (List.append_ne_nil_of_right_ne_nil _ hr)] at h
      obtain ⟨inner, hfind, h⟩ := h
      by_cases hnil : first = []
      · subst hnil
        exact ⟨inner, .last hfind, h⟩
      · obtain ⟨nested, hfirst, hrest⟩ := ih hnil h
        exact ⟨nested, .into hfind hfirst, hrest⟩

/-- A path of two parts resolves just if the first part resolves to an object and the second resolves in the
table of the object. It has the type that the second part has there, and its own names as its path, as every
path that resolves. Where the first part resolves to anything but an object, a list included, the whole is
refused at the first name behind it. -/
theorem resolve_append_iff (fields : FieldTable) {first rest : List String} (hf : first ≠ [])
    (hr : rest ≠ []) :
    (∀ field, resolve fields (first ++ rest) = .ok field ↔
      ∃ outer nested inner, resolve fields first = .ok outer ∧ outer.type = .object nested ∧
        resolve nested rest = .ok inner ∧ field.type = inner.type ∧ field.path = first ++ rest) ∧
    (∀ path field, resolve fields path = .ok field → field.path = path) ∧
    (∀ outer, resolve fields first = .ok outer → (∀ nested, outer.type ≠ .object nested) →
      resolve fields (first ++ rest) = .error (.notNested first outer.type (rest.head hr))) := by
  refine ⟨fun field => ?_, fun path field h => path_of_resolve h, fun outer h ht => ?_⟩
  · rw [resolve_eq_ok_iff, leadsTo_append_iff hf hr]
    constructor
    · rintro ⟨⟨nested, hfirst, hrest⟩, hpath⟩
      exact ⟨⟨first, .object nested⟩, nested, ⟨rest, field.type⟩, hfirst.resolveUnder_eq, rfl,
        hrest.resolveUnder_eq, rfl, hpath⟩
    · rintro ⟨outer, nested, inner, houter, htype, hinner, hfield, hpath⟩
      have hfirst := (resolve_eq_ok_iff.mp houter).1
      rw [htype] at hfirst
      rw [hfield]
      exact ⟨⟨nested, hfirst, (resolve_eq_ok_iff.mp hinner).1⟩, hpath⟩
  · have hrefused : resolve fields (first ++ rest.head hr :: rest.tail) = _ :=
      (resolve_eq_ok_iff.mp h).1.resolveUnder_behind ht
    rwa [List.cons_head_tail] at hrefused

/-- The role of the user of an application, and the members of a committee, who are a list and let no path
pass. -/
theorem resolve_append_iff_submitted :
    (∃ outer nested inner, resolve submittedFields ["user"] = .ok outer ∧ outer.type = .object nested ∧
      resolve nested ["role", "name"] = .ok inner ∧ inner.type = .text) ∧
    resolve submittedFields ["assignedCommitteeMembers", "user"] =
      .error (.notNested ["assignedCommitteeMembers"] (.list (.object committeeMemberFields)) "user") := by
  have hrole : resolve submittedFields ["user", "role", "name"] = .ok ⟨["user", "role", "name"], .text⟩ := rfl
  have hmembers : resolve submittedFields ["assignedCommitteeMembers"] =
      .ok ⟨["assignedCommitteeMembers"], .list (.object committeeMemberFields)⟩ := rfl
  have hlist : ∀ nested, FieldType.list (.object committeeMemberFields) ≠ .object nested := by rintro _ ⟨⟩
  obtain ⟨hiff, _, _⟩ :=
    resolve_append_iff submittedFields (List.cons_ne_nil "user" []) (List.cons_ne_nil "role" ["name"])
  obtain ⟨outer, nested, inner, houter, htype, hinner, htext, _⟩ := (hiff _).mp hrole
  obtain ⟨_, _, hrefused⟩ := resolve_append_iff submittedFields
    (List.cons_ne_nil "assignedCommitteeMembers" []) (List.cons_ne_nil "user" [])
  exact ⟨⟨outer, nested, inner, houter, htype, hinner, htext.symm⟩, hrefused _ hmembers hlist⟩

end RecordSearch.FieldTable

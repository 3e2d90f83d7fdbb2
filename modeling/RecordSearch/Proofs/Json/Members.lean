import RecordSearch.Predicate.Eval

/-!
# Members of objects

Documents in which no object repeats a name, and where a path of names leads in a document.
-/

namespace RecordSearch.Json

/-- No object in the value, at any depth, has two members of one name. -/
inductive Distinct : Json → Prop
  | null : Distinct .null
  | bool (b : Bool) : Distinct (.bool b)
  | number (n : Number) : Distinct (.number n)
  | string (s : String) : Distinct (.string s)
  | array {xs : List Json} (h : ∀ x ∈ xs, Distinct x) : Distinct (.array xs)
  | object {ms : List Member} (names : (ms.map (·.1)).Nodup) (h : ∀ m ∈ ms, Distinct m.2) :
      Distinct (.object ms)

/-- The path leads from member to member to the value, whatever that is. -/
inductive LeadsTo : Json → List String → Json → Prop
  | here (v : Json) : LeadsTo v [] v
  | member {ms : List Member} {name : String} {path : List String} {v w : Json} (hm : (name, v) ∈ ms)
      (h : LeadsTo v path w) : LeadsTo (.object ms) (name :: path) w

variable {doc v w : Json} {name : String} {path : List String} {ms : List Member}

@[simp] theorem leadsTo_nil : v.LeadsTo [] w ↔ w = v :=
  ⟨fun h => (by cases h; rfl), fun h => h ▸ .here v⟩

@[simp] theorem leadsTo_object_cons :
    (object ms).LeadsTo (name :: path) w ↔ ∃ v, (name, v) ∈ ms ∧ v.LeadsTo path w :=
  ⟨fun h => (by cases h with | member hm h => exact ⟨_, hm, h⟩), fun ⟨_, hm, h⟩ => .member hm h⟩

theorem mem_of_findMember (h : findMember name ms = some v) : (name, v) ∈ ms := by
  induction ms with
  | nil => cases h
  | cons m ms ih =>
      obtain ⟨k, w⟩ := m
      rw [findMember] at h
      split at h
      · next hk =>
        cases h
        rw [← hk.1]
        exact List.mem_cons_self
      · exact List.mem_cons_of_mem _ (ih h)

theorem findMember_of_mem (hd : (ms.map (·.1)).Nodup) (hm : (name, v) ∈ ms) (hn : v ≠ .null) :
    findMember name ms = some v := by
  induction ms with
  | nil => cases hm
  | cons m ms ih =>
      obtain ⟨k, w⟩ := m
      obtain ⟨hk, hd⟩ := List.nodup_cons.mp hd
      rw [findMember]
      rcases List.mem_cons.mp hm with e | hm
      · cases e
        exact if_pos ⟨rfl, fun h => hn (isNull_iff.mp h)⟩
      · have hne : k ≠ name := fun e => hk (e ▸ List.mem_map_of_mem (f := (·.1)) hm)
        rw [if_neg fun h => hne h.1, ih hd hm]

theorem leadsTo_of_lookup (h : doc.lookup path = some v) : doc.LeadsTo path v ∧ v ≠ .null := by
  induction path generalizing doc with
  | nil =>
      rw [lookup] at h
      split at h
      · cases h
      · next hn =>
        cases h
        exact ⟨.here _, fun e => hn (isNull_iff.mpr e)⟩
  | cons name path ih =>
      rw [lookup, Option.bind_eq_some_iff] at h
      obtain ⟨inner, hm, h⟩ := h
      cases doc with
      | object ms =>
          obtain ⟨hl, hn⟩ := ih h
          exact ⟨.member (mem_of_findMember hm) hl, hn⟩
      | _ => cases hm

theorem lookup_of_leadsTo (hd : doc.Distinct) (hl : doc.LeadsTo path v) (hn : v ≠ .null) :
    doc.lookup path = some v := by
  induction hl with
  | here v => rw [lookup, if_neg fun h => hn (isNull_iff.mp h)]
  | @member ms name path inner v hm hl ih =>
      cases hd with
      | object names hd =>
          -- No path goes on behind a null, and none that ends there leads to another value.
          have hinner : inner ≠ .null := by
            rintro rfl
            cases hl
            exact hn rfl
          rw [lookup, member?, findMember_of_mem names hm hinner, Option.bind_some]
          exact ih (hd _ hm) hn

/-- Where no object repeats a name, a lookup finds what the path leads to, unless that is `null`. -/
theorem lookup_eq_some_iff (hd : doc.Distinct) :
    doc.lookup path = some v ↔ doc.LeadsTo path v ∧ v ≠ .null :=
  ⟨leadsTo_of_lookup, fun ⟨hl, hn⟩ => lookup_of_leadsTo hd hl hn⟩

end RecordSearch.Json

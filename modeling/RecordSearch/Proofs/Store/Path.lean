import RecordSearch.Proofs.Field
import RecordSearch.Proofs.Json.RoundTrip
import RecordSearch.Proofs.Text
import RecordSearch.Record.Fields
import RecordSearch.Store.Database.Query

/-!
# Paths as parameters

The path of a field that a scope declares, written as a parameter, leads in a stored body to what the
path of the field leads to in the document.
-/

namespace RecordSearch

open Text

mutual

/-- No field, at any depth of nesting, has a point in its name. -/
def FieldType.undotted : FieldType → Bool
  | .object fields => FieldTable.undotted fields
  | _ => true

def FieldTable.undotted : List (String × FieldType) → Bool
  | [] => true
  | (name, type) :: rest => !name.toList.contains '.' && type.undotted && FieldTable.undotted rest

end

namespace FieldTable

theorem undotted_of_find? {table : FieldTable} {name : String} {type : FieldType}
    (h : undotted table = true) (hf : find? table name = some type) :
    '.' ∉ name.toList ∧ type.undotted = true := by
  unfold find? at hf
  induction table with
  | nil => cases hf
  | cons field table ih =>
      obtain ⟨n, t⟩ := field
      simp only [undotted, Bool.and_eq_true, Bool.not_eq_true'] at h
      by_cases e : name = n
      · subst e
        rw [List.lookup_cons_self] at hf
        cases hf
        exact ⟨by simpa using h.1.1, h.1.2⟩
      · rw [List.lookup_cons, beq_eq_false_iff_ne.mpr e] at hf
        exact ih h.2 hf

theorem LeadsTo.undotted {table : FieldTable} {path : List String} {type : FieldType}
    (h : table.LeadsTo path type) (ht : undotted table = true) : ∀ name ∈ path, '.' ∉ name.toList := by
  induction h with
  | last hf => exact List.forall_mem_singleton.mpr (undotted_of_find? ht hf).1
  | into hf _ ih =>
      obtain ⟨hname, hnested⟩ := undotted_of_find? ht hf
      exact List.forall_mem_cons.mpr ⟨hname, ih hnested⟩

end FieldTable

theorem Scope.fields_undotted (scope : Scope) : FieldTable.undotted scope.fields = true := by
  rcases scope with _ | _ | _ | (_ | _ | _) <;> decide

theorem toList_dotted (path : List String) : (dotted path).toList = join '.' (path.map String.toList) := by
  unfold dotted
  induction path with
  | nil => rfl
  | cons name path ih =>
      cases path with
      | nil => simp [join]
      | cons next rest =>
          rw [String.intercalate_cons_cons, String.toList_append, String.toList_append, ih]
          simp [join]

theorem pathKeys?_dotted {path : List String} (hne : path ≠ []) (h : ∀ name ∈ path, '.' ∉ name.toList) :
    Sql.pathKeys? ("$." ++ dotted path).toList = some path := by
  have hparts : ∀ part ∈ path.map String.toList, '.' ∉ part := by
    intro part hp
    obtain ⟨name, hn, rfl⟩ := List.mem_map.mp hp
    exact h name hn
  have hsegments := segments_join (by simpa using hne) hparts
  rw [String.toList_append, toList_dotted]
  change some ((segments '.' (join '.' (path.map String.toList))).map String.ofList) = _
  rw [hsegments, List.map_map]
  simp [Function.comp_def]

theorem locate_print {doc : Json} {field : Field} (hdoc : Json.Plain Json.maxDepth doc)
    (hne : field.path ≠ []) (h : ∀ name ∈ field.path, '.' ∉ name.toList) :
    Sql.locate (.text doc.print) (Clause.path field) = .ok (Sql.descend field.path doc) := by
  simp only [Sql.locate, Sql.Value.text?, Clause.path, Json.parse?_print hdoc, pathKeys?_dotted hne h]

end RecordSearch

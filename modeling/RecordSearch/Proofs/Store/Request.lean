import RecordSearch.Proofs.Store.Disk
import RecordSearch.Store.Basic

/-!
# Requests for a search

A request is answered in two parts: its query is compiled, and then the store that it names is opened and
searched. What a request does to the disk, and whether it fails, comes from the second part.
-/

namespace RecordSearch

namespace SearchRequest

variable {env : Surroundings} {request : SearchRequest} {scope : Scope} {filter : Filter} {disk : Disk}

/-- The scope and the filter that a request compiles to. -/
def compiled (request : SearchRequest) : Except SearchError (Scope × Filter) := do
  let entity ← Entity.ofName request.entity
  entity.compile request.query request.byOr

/-- A search with an open store. -/
def search (env : Surroundings) (request : SearchRequest) (scope : Scope) (filter : Filter) :
    Action (List Record) := do
  let store ← Store.openExisting env (request.store.getD {})
  store.find scope filter

theorem run_of_rejected {e : SearchError} (h : request.compiled = .error e) :
    request.run env disk = (.error (.rejected e), disk) := by
  unfold compiled at h
  rw [run, h]

theorem run_of_compiled (h : request.compiled = .ok (scope, filter)) :
    request.run env disk =
      ((request.search env scope filter disk).1.mapError .store,
        (request.search env scope filter disk).2) := by
  unfold compiled at h
  rw [run, h]
  rfl

theorem run_intact (h : ∀ scope filter, disk.Intact (request.search env scope filter disk).2) :
    disk.Intact (request.run env disk).2 := by
  cases hcompiled : request.compiled with
  | error e =>
      rw [run_of_rejected hcompiled]
      exact .refl disk
  | ok compiled =>
      obtain ⟨scope, filter⟩ := compiled
      rw [run_of_compiled hcompiled]
      exact h scope filter

theorem run_fails (h : ∀ scope filter, ∃ e, (request.search env scope filter disk).1 = .error e) :
    ∃ failure, (request.run env disk).1 = .error failure := by
  cases hcompiled : request.compiled with
  | error e =>
      rw [run_of_rejected hcompiled]
      exact ⟨_, rfl⟩
  | ok compiled =>
      obtain ⟨scope, filter⟩ := compiled
      obtain ⟨e, he⟩ := h scope filter
      rw [run_of_compiled hcompiled, he]
      exact ⟨_, rfl⟩

end SearchRequest

end RecordSearch

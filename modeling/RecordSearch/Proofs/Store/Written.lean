import RecordSearch.Proofs.Store.Accounted
import RecordSearch.Proofs.Store.Interleaving
import RecordSearch.Proofs.Store.Unsupported

/-!
# Stores that only the program wrote

Where nothing was at first and only handles on a store, loads into it and searches in it wrote to its files,
these hold what some ledger says.
-/

namespace RecordSearch

open RecordSearch.Action (Preserves)

variable {place : Place} {disk : Disk} {env : Surroundings} {config : StoreConfig} {backend : Backend}

/-! ## Steps -/

namespace Session

/-- All that the files of the store hold is accounted for, and an open handle is on this store. -/
structure Accounted (backend : Backend) (place : Place) (s : Session) : Prop where
  disk : backend.Accounted place s.disk
  handle : ∀ store, s.handle = some store → store.At backend place

theorem accounted_act {store : Store} {action : Store → Action (Answer × Store)}
    (ha : Preserves (backend.Accounted place) (fun r => r.2.At backend place) (action store))
    (hs : store.At backend place) (hd : backend.Accounted place disk) :
    Accounted backend place (act action store disk).2 := by
  obtain ⟨hleft, hgiven⟩ := ha disk hd
  rw [act]
  rcases hr : action store disk with ⟨e | ⟨answer, next⟩, d⟩ <;> rw [hr] at hleft hgiven
  · exact ⟨hleft, by rintro _ ⟨⟩; exact hs⟩
  · exact ⟨hleft, by rintro _ ⟨⟩; exact hgiven _ rfl⟩

theorem accounted_use {s : Session} {action : Store → Action (Answer × Store)}
    (hc : config.At env backend place)
    (ha : ∀ store, store.At backend place →
      Preserves (backend.Accounted place) (fun r => r.2.At backend place) (action store))
    (hs : Accounted backend place s) : Accounted backend place (use env config action s).2 := by
  rw [use]
  cases hh : s.handle with
  | some store =>
      have hstore := hs.handle store hh
      exact accounted_act (ha store hstore) hstore hs.disk
  | none =>
      obtain ⟨hleft, hgiven⟩ := Store.preserves_openOrCreate hc s.disk hs.disk
      rcases hr : Store.openOrCreate env config s.disk with ⟨e | store, d⟩ <;> rw [hr] at hleft hgiven
      · exact ⟨hleft, by rintro _ ⟨⟩⟩
      · have hstore := hgiven store rfl
        exact accounted_act (ha store hstore) hstore hleft

theorem accounted_describe {s : Session} {action : Action StoreSummary}
    (ha : Preserves (backend.Accounted place) (fun _ => True) action) (hs : Accounted backend place s) :
    Accounted backend place (describe action s).2 := by
  obtain ⟨hleft, _⟩ := ha s.disk hs.disk
  rw [describe]
  rcases hr : action s.disk with ⟨_ | _, d⟩ <;> rw [hr] at hleft <;> exact ⟨hleft, hs.handle⟩

theorem Accounted.step {s : Session} {step : Step} (hs : Accounted backend place s)
    (hc : config.At env backend place) (hl : step.LeavesAlone (backend.files place)) :
    Accounted backend place (Session.step env config step s).2 := by
  cases step with
  | reopen =>
      obtain ⟨hleft, hgiven⟩ := Store.preserves_openOrCreate hc s.disk hs.disk
      rw [Session.step, reopen]
      rcases hr : Store.openOrCreate env config s.disk with ⟨e | store, d⟩ <;> rw [hr] at hleft hgiven
      · exact ⟨hleft, by rintro _ ⟨⟩⟩
      · exact ⟨hleft, by rintro _ ⟨⟩; exact hgiven store rfl⟩
  | insert records =>
      refine accounted_use hc (fun store hstore => ?_) hs
      exact (Store.preserves_insert hstore records).bind fun next hnext => .pure hnext
  | count table =>
      refine accounted_use hc (fun store hstore => ?_) hs
      exact (store.preserves_count table).bind fun _ _ => .pure hstore
  | find scope filter =>
      refine accounted_use hc (fun store hstore => ?_) hs
      exact (store.preserves_find scope filter).bind fun _ _ => .pure hstore
  | saveMetadata m =>
      refine accounted_use hc (fun store hstore => ?_) hs
      exact (Store.preserves_saveMetadata hstore m).bind fun next hnext => .pure hnext
  | loadMetadata =>
      refine accounted_use hc (fun store hstore => ?_) hs
      exact (store.preserves_loadMetadata env).bind fun _ _ => .pure hstore
  | load input => exact accounted_describe (Store.preserves_load hc input) hs
  | info => exact accounted_describe (Store.preserves_info hc) hs
  | outside l entry =>
      have hsame := @Disk.content?_put_of_not_mem s.disk l _ hl entry
      refine ⟨?_, hs.handle⟩
      rcases hs.disk with ⟨ledger, hfiled⟩ | ⟨k, hk, hc⟩
      · exact .inl ⟨ledger, hfiled.congr hsame⟩
      · exact .inr ⟨k, hk, (hsame k hk).trans hc⟩

end Session

theorem SearchRequest.accounted_run {request : SearchRequest}
    (hc : (request.store.getD {}).At env backend place) (h : backend.Accounted place disk) :
    backend.Accounted place (request.run env disk).2 := by
  cases hcompiled : request.compiled with
  | error e =>
      rw [run_of_rejected hcompiled]
      exact h
  | ok compiled =>
      obtain ⟨scope, filter⟩ := compiled
      rw [run_of_compiled hcompiled]
      have hsearch : Preserves (backend.Accounted place) (fun _ => True) (request.search env scope filter) :=
        (Store.preserves_openExisting hc).bind fun store _ => store.preserves_find scope filter
      exact (hsearch disk h).1

/-! ## Whatever the program does -/

/-- A disk where there was no store of that kind at that place, and since then only the program wrote to its
files, on a medium that did not give out: handles on the store took their steps, whenever they were opened and
by whatever path, and it was searched. -/
inductive Written (backend : Backend) (place : Place) : Disk → Prop where
  | absent {disk : Disk} (h : ∀ l ∈ backend.files place, disk.content? l = none) : Written backend place disk
  | step {s : Session} (h : Written backend place s.disk)
      (handle : ∀ store, s.handle = some store → store.At backend place)
      {env : Surroundings} {config : StoreConfig} (at' : config.At env backend place)
      {step : Step} (others : step.LeavesAlone (backend.files place)) :
      Written backend place (Session.step env config step s).2.disk
  | search {disk : Disk} (h : Written backend place disk) {env : Surroundings} {request : SearchRequest}
      (at' : (request.store.getD {}).At env backend place) : Written backend place (request.run env disk).2

namespace Written

theorem accounted (h : Written backend place disk) : backend.Accounted place disk := by
  induction h with
  | absent h => exact .inl ⟨{}, Backend.filed_of_absent h⟩
  | step _ handle at' others ih => exact (Session.Accounted.step ⟨ih, handle⟩ at' others).disk
  | search _ at' ih => exact SearchRequest.accounted_run at' ih

/-- A session that starts with such a disk leaves one. -/
theorem run {workingDirectory : Location} {events : List Event} {s : Session}
    (h : Written backend place s.disk) (handle : ∀ store, s.handle = some store → store.At backend place)
    (at' : ∀ now, config.At ⟨workingDirectory, now⟩ backend place)
    (others : ∀ e ∈ events, e.step.LeavesAlone (backend.files place)) :
    Written backend place (Session.run workingDirectory config events s).2.disk := by
  induction events generalizing s with
  | nil => exact h
  | cons e events ih =>
      have hothers := others e (List.mem_cons_self ..)
      have hnext := Session.Accounted.step ⟨h.accounted, handle⟩ (at' e.now) hothers
      exact ih (h.step handle (at' e.now) hothers) hnext.handle fun f hf =>
        others f (List.mem_cons_of_mem _ hf)

theorem load (h : Written config.backend (config.place env) disk) (input : String) :
    Written config.backend (config.place env) (Store.load env config input disk).2 := by
  let s : Session := ⟨disk, none⟩
  have hclosed : ∀ store, s.handle = some store → store.At config.backend (config.place env) := nofun
  have hstep : Written config.backend (config.place env) (Session.step env config (.load input) s).2.disk :=
    .step h hclosed ⟨rfl, rfl⟩ trivial
  rwa [Session.step, Session.describe_disk] at hstep

end Written

end RecordSearch

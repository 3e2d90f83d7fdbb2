import RecordSearch.Proofs.Store.Readable
import RecordSearch.Proofs.Store.Request

/-!
# Stores seen from elsewhere

A store whose path leads to one location from two working directories is the same store from both: what
searches find in it and what is said of it does not depend on where one is.
-/

namespace RecordSearch

variable {env env' : Surroundings} {config : StoreConfig} {disk : Disk}

/-! ## Stores that differ in their way -/

/-- The same store, reached by ways that may differ. -/
inductive Store.Alike : Store → Store → Prop where
  | directory {place place' : Place} (h : place.path = place'.path) (metadata : Option StoreMeta)
      (records : List Record) :
      Alike (.directory ⟨place, metadata, records⟩) (.directory ⟨place', metadata, records⟩)
  | database {place place' : Place} (h : place.path = place'.path) (hl : place.location = place'.location)
      (own : Option Database) : Alike (.database ⟨place, own⟩) (.database ⟨place', own⟩)

namespace Store.Alike

variable {store store' : Store}

theorem find (h : store.Alike store') (scope : Scope) (filter : Filter) :
    store.find scope filter = store'.find scope filter := by
  cases h with
  | directory => rfl
  | database _ hl =>
      simp only [Store.find, DatabaseStore.find, DatabaseStore.read, DatabaseStore.database?, hl]

theorem loadMetadata (h : store.Alike store') (hnow : env.now = env'.now) :
    store.loadMetadata env = store'.loadMetadata env' := by
  cases h with
  | directory => simp only [Store.loadMetadata, DirectoryStore.loadMetadata, hnow]
  | database _ hl =>
      simp only [Store.loadMetadata, DatabaseStore.loadMetadata, DatabaseStore.read,
        DatabaseStore.database?, hl, hnow]

theorem summary (h : store.Alike store') (m : StoreMeta) (loaded : Option Nat) :
    store.summary m loaded = store'.summary m loaded := by
  cases h with
  | directory hp =>
      simp only [Store.summary, Store.count, DirectoryStore.count, Store.path, Store.backend, hp]
  | database hp hl =>
      simp only [Store.summary, Store.count, DatabaseStore.count, DatabaseStore.read,
        DatabaseStore.database?, Store.path, Store.backend, hp, hl]

end Store.Alike

/-! ## Opening -/

/-- Opened from two places: the same error, or the same store but for the way to it, and the same disk. -/
def Store.OpenedAlike : Except StoreError Store × Disk → Except StoreError Store × Disk → Prop
  | (.ok store, disk), (.ok store', disk') => store.Alike store' ∧ disk = disk'
  | (.error e, disk), (.error e', disk') => e = e' ∧ disk = disk'
  | _, _ => False

section

variable {place place' : Place}

theorem DirectoryStore.found_relocated (hp : place.path = place'.path) (hl : place.location = place'.location)
    (disk : Disk) :
    found place' disk = (found place disk).map fun store => ⟨place', store.metadata, store.records⟩ := by
  have hlocation (name : String) : (place'.child name).location = (place.child name).location := by
    simp only [Place.child, hl]
  have hpath (name : String) : (place'.child name).path = (place.child name).path := by
    simp only [Place.child, hp]
  have hmetadata (entry : Option Entry) : foundMetadata place' entry = foundMetadata place entry := by
    rcases entry with _ | entry
    · rfl
    · cases entry <;> simp only [foundMetadata, metadataPlace, hpath]
  have hrecords (entry : Option Entry) : foundRecords place' entry = foundRecords place entry := by
    rcases entry with _ | entry
    · rfl
    · cases entry <;> simp only [foundRecords, recordsPlace, hpath]
  have hmeta : (metadataPlace place').location = (metadataPlace place).location := hlocation _
  have hfile : (recordsPlace place').location = (recordsPlace place).location := hlocation _
  rw [found, found, hmetadata, hmeta, hrecords, hfile]
  cases foundMetadata place (disk.content? (metadataPlace place).location) with
  | error e => rfl
  | ok metadata =>
      rw [ok_bind, ok_bind]
      cases foundRecords place (disk.content? (recordsPlace place).location) <;> rfl

theorem DirectoryStore.openAt_alike (hp : place.path = place'.path) (hl : place.location = place'.location)
    (hd : Disk.Made (directories place) disk) (hd' : Disk.Made (directories place') disk) :
    Store.OpenedAlike ((Store.directory <$> openAt place : Action Store) disk)
      ((Store.directory <$> openAt place' : Action Store) disk) := by
  have hopen := openAt_eq (Disk.makeDirectories_of_made hd)
  have hopen' := openAt_eq (Disk.makeDirectories_of_made hd')
  rw [found_relocated hp hl] at hopen'
  cases hfound : found place disk with
  | error e =>
      rw [hfound] at hopen hopen'
      rw [Action.map_of_error _ hopen, Action.map_of_error _ hopen']
      exact ⟨rfl, rfl⟩
  | ok store =>
      rw [hfound] at hopen hopen'
      obtain ⟨_, _, rfl⟩ := found_eq_ok_iff.mp hfound
      rw [Action.map_of_ok _ hopen, Action.map_of_ok _ hopen']
      exact ⟨.directory hp _ _, rfl⟩

theorem DatabaseStore.openAt_relocated (hp : place.path = place'.path) (hl : place.location = place'.location)
    (hd : Disk.Made place.way disk) (hd' : Disk.Made place'.way disk) :
    openAt place' disk =
      ((openAt place disk).1.map fun store => ⟨place', store.own⟩, (openAt place disk).2) := by
  by_cases h : place.path ∈ privateNames
  · rw [openAt_of_private h, openAt_of_private (hp ▸ h)]
    rfl
  · have hmade := Disk.makeDirectories_of_made hd
    have hmade' := Disk.makeDirectories_of_made hd'
    rw [openAt_of_file h, openAt_of_file (hp ▸ h), openFile, openFile,
      Action.bind_of_ok (Action.change_of_some hmade'), Action.bind_of_ok (Action.change_of_some hmade),
      Action.get_bind, Action.get_bind, hl]
    rcases disk.content? place'.location with _ | _ | ⟨_ | _⟩ | _ | db <;> rfl

theorem DatabaseStore.openAt_alike (hp : place.path = place'.path) (hl : place.location = place'.location)
    (hd : Disk.Made place.way disk) (hd' : Disk.Made place'.way disk) :
    Store.OpenedAlike ((Store.database <$> openAt place : Action Store) disk)
      ((Store.database <$> openAt place' : Action Store) disk) := by
  have hmoved := openAt_relocated hp hl hd hd'
  rcases ho : openAt place disk with ⟨e | store, opened⟩
  · rw [ho] at hmoved
    rw [Action.map_of_error _ ho, Action.map_of_error _ hmoved]
    exact ⟨rfl, rfl⟩
  · rw [ho] at hmoved
    obtain ⟨own, rfl⟩ : ∃ own, store = ⟨place, own⟩ := by
      rcases exists_database_of_openAt ho with ⟨_, rfl, _⟩ | ⟨_, rfl, _⟩ <;> exact ⟨_, rfl⟩
    rw [Action.map_of_ok _ ho, Action.map_of_ok _ hmoved]
    exact ⟨.database hp hl own, rfl⟩

end

namespace Store

/-- A path that leads to one location from two places opens the same store. -/
theorem openExisting_alike
    (h : disk.follow? env.workingDirectory config.path = disk.follow? env'.workingDirectory config.path) :
    OpenedAlike (openExisting env config disk) (openExisting env' config disk) := by
  obtain ⟨backend, path⟩ := config
  cases hf : disk.follow? env.workingDirectory path with
  | none =>
      rw [openExisting_of_absent hf, openExisting_of_absent (h.symm.trans hf)]
      exact ⟨rfl, rfl⟩
  | some l =>
      have hf' := h.symm.trans hf
      have hway := Disk.made_way_of_follow? hf
      have hway' := Disk.made_way_of_follow? hf'
      obtain ⟨hl, _⟩ := Disk.eq_of_follow? hf
      obtain ⟨hl', _⟩ := Disk.eq_of_follow? hf'
      rw [openExisting_of_follow? hf, openExisting_of_follow? hf']
      cases backend with
      | file =>
          dsimp only
          split
          · next hd =>
            have hdirectory := Disk.isDirectory_iff.mp hd
            refine DirectoryStore.openAt_alike rfl (hl.symm.trans hl') ?_ ?_
            · exact List.forall_mem_append.mpr
                ⟨hway, List.forall_mem_singleton.mpr ((congrArg disk.content? hl).symm.trans hdirectory)⟩
            · exact List.forall_mem_append.mpr
                ⟨hway', List.forall_mem_singleton.mpr ((congrArg disk.content? hl').symm.trans hdirectory)⟩
          · exact ⟨rfl, rfl⟩
      | sqlite =>
          dsimp only
          split
          · exact DatabaseStore.openAt_alike rfl (hl.symm.trans hl') hway hway'
          · exact ⟨rfl, rfl⟩

/-- What is done with a store once it is open does not depend on where one is. -/
theorem openExisting_bind_congr {α : Type} {f g : Store → Action α}
    (h : disk.follow? env.workingDirectory config.path = disk.follow? env'.workingDirectory config.path)
    (hf : ∀ store store', Alike store store' → f store = g store') :
    (openExisting env config >>= f) disk = (openExisting env' config >>= g) disk := by
  have halike := openExisting_alike h
  rcases ho : openExisting env config disk with ⟨e | store, opened⟩ <;>
    rcases ho' : openExisting env' config disk with ⟨e' | store', opened'⟩ <;>
    rw [ho, ho'] at halike
  · obtain ⟨rfl, rfl⟩ := halike
    rw [Action.bind_of_error ho, Action.bind_of_error ho']
  · exact halike.elim
  · exact halike.elim
  · obtain ⟨hstore, rfl⟩ := halike
    rw [Action.bind_of_ok ho, Action.bind_of_ok ho', hf store store' hstore]

theorem info_relocated
    (h : disk.follow? env.workingDirectory config.path = disk.follow? env'.workingDirectory config.path)
    (hnow : env.now = env'.now) : info env config disk = info env' config disk :=
  openExisting_bind_congr h fun store store' hs => by
    rw [hs.loadMetadata hnow]
    exact congrArg _ (funext fun m => hs.summary m none)

end Store

theorem SearchRequest.run_relocated {request : SearchRequest} (hs : request.store = some config)
    (h : disk.follow? env.workingDirectory config.path = disk.follow? env'.workingDirectory config.path) :
    request.run env disk = request.run env' disk := by
  cases hcompiled : request.compiled with
  | error e => rw [run_of_rejected hcompiled, run_of_rejected hcompiled]
  | ok compiled =>
      obtain ⟨scope, filter⟩ := compiled
      have hsearch : request.search env scope filter disk = request.search env' scope filter disk := by
        rw [search, search, hs]
        exact Store.openExisting_bind_congr h fun store store' hs => hs.find scope filter
      rw [run_of_compiled hcompiled, run_of_compiled hcompiled, hsearch]

end RecordSearch

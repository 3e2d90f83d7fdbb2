import RecordSearch.Proofs.Store.Readable

/-!
# Files that are accounted for

The files of a store hold what some ledger says, or a directory is in the way of one of them. Whatever is
done with the store keeps this, whether it succeeds or fails at any point.
-/

namespace RecordSearch

open RecordSearch.Action (Preserves)

/-! ## What the files hold -/

variable {place : Place} {ledger : Ledger} {disk disk' : Disk}

/-- The files of the store hold just what the ledger says, and a file that is missing holds nothing. -/
structure DirectoryStore.Filed (place : Place) (ledger : Ledger) (disk : Disk) : Prop where
  records : ∃ text : Option (List Char), disk.content? (recordsPlace place).location = text.map .text ∧
    text.getD [] = ledger.records.flatMap Record.line
  metadata : disk.content? (metadataPlace place).location = ledger.metadata.map fun m => .text m.print
  draft : disk.content? (draftPlace place).location = none

/-- The rows of the database hold just what the ledger says. -/
def Database.Holds (ledger : Ledger) (db : Database) : Prop :=
  RecordRow.AllHold db.records ledger.records ∧
    db.metadata = (ledger.metadata.map DatabaseStore.rowsOfMetadata).getD []

/-- The file of the database holds just what the ledger says, and if it is missing there is nothing. -/
def DatabaseStore.Filed (place : Place) (ledger : Ledger) (disk : Disk) : Prop :=
  ∃ db : Option Database, disk.content? place.location = db.map .database ∧ (db.getD {}).Holds ledger

namespace Backend

variable {backend : Backend}

def Filed (place : Place) (ledger : Ledger) (disk : Disk) : Backend → Prop
  | .file => DirectoryStore.Filed place ledger disk
  | .sqlite => DatabaseStore.Filed place ledger disk

/-- What the files hold is what a ledger says, or a directory is in the way of one of them. -/
def Accounted (place : Place) (disk : Disk) (backend : Backend) : Prop :=
  (∃ ledger, backend.Filed place ledger disk) ∨ ∃ l ∈ backend.files place, disk.content? l = some .directory

theorem Filed.congr (h : backend.Filed place ledger disk)
    (he : ∀ l ∈ backend.files place, disk'.content? l = disk.content? l) :
    backend.Filed place ledger disk' := by
  cases backend with
  | file =>
      simp only [files, DirectoryStore.files, List.forall_mem_cons] at he
      obtain ⟨hrecords, hmetadata, hdraft, _⟩ := he
      exact ⟨hrecords ▸ h.records, hmetadata.trans h.metadata, hdraft.trans h.draft⟩
  | sqlite =>
      obtain ⟨db, hc, hheld⟩ := h
      exact ⟨db, (he _ (List.mem_singleton_self _)).trans hc, hheld⟩

theorem filed_of_absent (h : ∀ l ∈ backend.files place, disk.content? l = none) :
    backend.Filed place {} disk := by
  cases backend with
  | file =>
      simp only [files, DirectoryStore.files, List.forall_mem_cons] at h
      obtain ⟨hrecords, hmetadata, hdraft, _⟩ := h
      exact ⟨⟨none, hrecords, rfl⟩, hmetadata, hdraft⟩
  | sqlite => exact ⟨none, h _ (List.mem_singleton_self _), ⟨trivial, rfl⟩⟩

/-- Directories that are made where nothing was may get in the way of files, but change none. -/
theorem Accounted.intact (h : backend.Accounted place disk) (hi : disk.Intact disk') :
    backend.Accounted place disk' := by
  by_cases hway : ∃ l ∈ backend.files place, disk'.content? l = some .directory
  · exact .inr hway
  · have hsame : ∀ l ∈ backend.files place, disk'.content? l = disk.content? l := fun l hl =>
      (hi l).resolve_right fun hmade => hway ⟨l, hl, hmade.2⟩
    obtain ⟨ledger, hfiled⟩ := h.resolve_right fun ⟨l, hl, hc⟩ => hway ⟨l, hl, (hsame l hl).trans hc⟩
    exact .inl ⟨ledger, hfiled.congr hsame⟩

theorem files_congr {place' : Place} (h : place.location = place'.location) (backend : Backend) :
    backend.files place = backend.files place' := by
  cases backend with
  | file =>
      simp only [files, DirectoryStore.files, DirectoryStore.recordsPlace, DirectoryStore.metadataPlace,
        DirectoryStore.draftPlace, Place.child, h]
  | sqlite => exact congrArg (fun l => [l]) h

theorem Filed.of_location {place' : Place} (hl : place.location = place'.location)
    (h : backend.Filed place ledger disk) : backend.Filed place' ledger disk := by
  cases backend with
  | file =>
      have hchild : ∀ name, (place.child name).location = (place'.child name).location := fun name =>
        congrArg (· ++ [name]) hl
      have hrecords := h.records
      have hmetadata := h.metadata
      have hdraft := h.draft
      rw [DirectoryStore.recordsPlace, hchild] at hrecords
      rw [DirectoryStore.metadataPlace, hchild] at hmetadata
      rw [DirectoryStore.draftPlace, hchild] at hdraft
      exact ⟨hrecords, hmetadata, hdraft⟩
  | sqlite =>
      rw [Filed, DatabaseStore.Filed, hl] at h
      exact h

/-- What is accounted for does not depend on the path by which the place is reached. -/
theorem accounted_congr {place' : Place} (h : place.location = place'.location) (backend : Backend) :
    backend.Accounted place = backend.Accounted place' := by
  have hfiled : ∀ ledger disk, backend.Filed place ledger disk = backend.Filed place' ledger disk :=
    fun ledger disk => propext ⟨.of_location h, .of_location h.symm⟩
  funext disk
  simp only [Accounted, hfiled, files_congr h]

end Backend

/-! ## Operations -/

namespace DirectoryStore

variable {store : DirectoryStore}

theorem preserves_openAt (place : Place) :
    Preserves (Backend.file.Accounted place) (·.place = place) (openAt place) := by
  intro disk hdisk
  refine ⟨hdisk.intact (openAt_intact place disk), fun store hs => ?_⟩
  obtain ⟨_, hfound⟩ := openAt_eq_ok_iff.mp (Prod.ext hs rfl)
  exact (found_eq_ok_iff.mp hfound).2.2

theorem preserves_insert (store : DirectoryStore) (records : List Record) :
    Preserves (Backend.file.Accounted store.place) (·.place = store.place) (store.insert records) := by
  intro disk hdisk
  let target := (recordsPlace store.place).location
  cases happend : disk.appendText? target (records.flatMap Record.line) with
  | none =>
      have hinsert : store.insert records disk = (.error .fileSystem, disk) :=
        Action.bind_of_error (Action.change_of_none happend)
      rw [hinsert]
      exact ⟨hdisk, nofun⟩
  | some grown =>
      have hinsert : store.insert records disk =
          (.ok { store with records := store.records ++ records }, grown) :=
        Action.bind_of_ok (Action.change_of_some happend)
      rw [hinsert]
      refine ⟨?_, by rintro _ ⟨⟩; rfl⟩
      rcases Disk.appendText?_eq_some happend with ⟨before, hbefore, rfl⟩ | ⟨_, rfl⟩
      · rcases hdisk with ⟨ledger, hfiled⟩ | ⟨l, hl, hc⟩
        · have hgrown := @Disk.content?_insert disk target (.text (before.getD [] ++ records.flatMap Record.line))
            (child_location_ne_nil _ _)
          refine .inl ⟨ledger.insert records, ⟨some _, hgrown, ?_⟩, ?_, ?_⟩
          · obtain ⟨text, htext, hlines⟩ := hfiled.records
            cases Option.map_injective (fun _ _ => Entry.text.inj) (hbefore.symm.trans htext)
            rw [Option.getD_some, hlines, Ledger.insert, List.flatMap_append]
          · exact (Disk.content?_insert_of_ne (metadataPlace_ne_recordsPlace _)).trans hfiled.metadata
          · exact (Disk.content?_insert_of_ne (draftPlace_ne_recordsPlace _)).trans hfiled.draft
        · refine .inr ⟨l, hl, (Disk.content?_insert_of_ne ?_).trans hc⟩
          rintro rfl
          rw [hc] at hbefore
          cases before <;> cases hbefore
      · exact hdisk

theorem preserves_saveMetadata (store : DirectoryStore) (m : StoreMeta) :
    Preserves (Backend.file.Accounted store.place) (·.place = store.place) (store.saveMetadata m) := by
  intro disk hdisk
  let draft := (draftPlace store.place).location
  let target := (metadataPlace store.place).location
  have hne : target ≠ draft := (draftPlace_ne_metadataPlace _).symm
  cases hwrite : disk.writeText? draft m.print with
  | none =>
      have hsave : store.saveMetadata m disk = (.error .fileSystem, disk) :=
        Action.bind_of_error (Action.change_of_none hwrite)
      rw [hsave]
      exact ⟨hdisk, by rintro _ ⟨⟩⟩
  | some written =>
      obtain ⟨hparent, hdraft, rfl⟩ := Disk.writeText?_eq_some hwrite
      have hparent : disk.content? store.place.location = some .directory :=
        dropLast_child_location store.place _ ▸ hparent
      by_cases hd : disk.content? target = some .directory
      · rw [saveMetadata_of_obstructed hparent hdraft hd]
        have hmem : target ∈ files store.place := by simp [files, target]
        exact ⟨.inr ⟨target, hmem, (Disk.content?_insert_of_ne hne).trans hd⟩, by rintro _ ⟨⟩⟩
      · obtain ⟨disk', hsave, hsaved, hgone, hagree, hstays⟩ := exists_saveMetadata hparent hdraft hd m
        rw [hsave]
        refine ⟨?_, by rintro _ ⟨⟩; rfl⟩
        rcases hdisk with ⟨ledger, hfiled⟩ | ⟨l, hl, hc⟩
        · refine .inl ⟨ledger.save m, ?_, hsaved, hgone⟩
          have hapart : (recordsPlace store.place).location ∉ [target, draft] := by
            simp [target, draft, (metadataPlace_ne_recordsPlace _).symm, (draftPlace_ne_recordsPlace _).symm]
          rw [hagree _ hapart]
          exact hfiled.records
        · have hmade : Disk.Made [l] disk := List.forall_mem_singleton.mpr hc
          exact .inr ⟨l, hl, hstays _ hmade l (List.mem_singleton_self l)⟩

end DirectoryStore

namespace DatabaseStore

theorem preserves_openAt (place : Place) :
    Preserves (Backend.sqlite.Accounted place) (·.place = place) (openAt place) := by
  intro disk hdisk
  by_cases hp : place.path ∈ privateNames
  · rw [openAt_of_private hp]
    exact ⟨hdisk, by rintro _ ⟨⟩; rfl⟩
  · cases hd : disk.makeDirectories place.way with
    | none =>
        rw [openAt_of_blocked hp hd]
        exact ⟨hdisk, nofun⟩
    | some made =>
        have hmade := hdisk.intact (Disk.intact_of_makeDirectories hd)
        rcases openAt_cases hp hd with ⟨_, _, hopen⟩ | ⟨hc, hopen⟩ | hopen <;> rw [hopen]
        · exact ⟨hmade, by rintro _ ⟨⟩; rfl⟩
        · have hne := Disk.ne_nil_of_not_directory (not_directory_of_empty hc)
          exact ⟨.inl ⟨{}, some {}, Disk.content?_insert hne, trivial, rfl⟩, by rintro _ ⟨⟩; rfl⟩
        · exact ⟨hmade, nofun⟩

/-- What becomes of the database that was read is written to the file, unless the database is private. -/
theorem preserves_update (store : DatabaseStore) {f : Database → Database}
    (hf : ∀ {db : Database} {ledger}, db.Holds ledger → ∃ ledger', (f db).Holds ledger') :
    Preserves (Backend.sqlite.Accounted store.place) (·.place = store.place)
      (store.read >>= fun db => store.write (f db)) := by
  intro disk hdisk
  cases hr : store.database? disk with
  | none =>
      rw [Action.bind_of_error (read_of_none hr)]
      exact ⟨hdisk, nofun⟩
  | some db =>
      rw [Action.bind_of_ok (read_eq hr)]
      obtain ⟨place, own⟩ := store
      cases own with
      | some _ => exact ⟨hdisk, by rintro _ ⟨⟩; rfl⟩
      | none =>
          have hc := database?_eq_some_iff.mp hr
          refine ⟨.inl ?_, by rintro _ ⟨⟩; rfl⟩
          rcases hdisk with ⟨ledger, found, hfound, hheld⟩ | ⟨l, hl, hd⟩
          · rw [hc] at hfound
            cases found <;> cases hfound
            obtain ⟨ledger', hheld'⟩ := hf hheld
            exact ⟨ledger', some (f db), Disk.content?_insert (location_ne_nil hc), hheld'⟩
          · rw [List.mem_singleton.mp hl, hc] at hd
            cases hd

theorem preserves_insert (store : DatabaseStore) (records : List Record) :
    Preserves (Backend.sqlite.Accounted store.place) (·.place = store.place) (store.insert records) :=
  preserves_update store fun {_ ledger} h =>
    ⟨ledger.insert records, Database.addRecords_hold h.1, (Database.addRecords_metadata ..).trans h.2⟩

theorem preserves_saveMetadata (store : DatabaseStore) (m : StoreMeta) :
    Preserves (Backend.sqlite.Accounted store.place) (·.place = store.place) (store.saveMetadata m) :=
  preserves_update store fun {_ ledger} h => ⟨ledger.save m, h.1, rfl⟩

end DatabaseStore

/-! ## Stores of both kinds -/

namespace Store

variable {backend : Backend} {store : Store} {P : Disk → Prop}

def location : Store → Location
  | .directory store => store.place.location
  | .database store => store.place.location

/-- The store is of that kind and keeps its files there. -/
def At (backend : Backend) (place : Place) (store : Store) : Prop :=
  store.backend = backend ∧ store.location = place.location

theorem preserves_insert (h : store.At backend place) (records : List Record) :
    Preserves (backend.Accounted place) (At backend place) (store.insert records) := by
  obtain ⟨rfl, hl⟩ := h
  cases store with
  | directory store =>
      rw [← Backend.accounted_congr hl]
      refine (store.preserves_insert records).map _ fun next hnext => ⟨rfl, ?_⟩
      exact (congrArg Place.location hnext).trans hl
  | database store =>
      rw [← Backend.accounted_congr hl]
      refine (store.preserves_insert records).map _ fun next hnext => ⟨rfl, ?_⟩
      exact (congrArg Place.location hnext).trans hl

theorem preserves_saveMetadata (h : store.At backend place) (m : StoreMeta) :
    Preserves (backend.Accounted place) (At backend place) (store.saveMetadata m) := by
  obtain ⟨rfl, hl⟩ := h
  cases store with
  | directory store =>
      rw [← Backend.accounted_congr hl]
      refine (store.preserves_saveMetadata m).map _ fun next hnext => ⟨rfl, ?_⟩
      exact (congrArg Place.location hnext).trans hl
  | database store =>
      rw [← Backend.accounted_congr hl]
      refine (store.preserves_saveMetadata m).map _ fun next hnext => ⟨rfl, ?_⟩
      exact (congrArg Place.location hnext).trans hl

end Store

namespace StoreConfig

/-- A store of that kind and with its files there is configured, by whatever path. -/
def At (env : Surroundings) (backend : Backend) (place : Place) (config : StoreConfig) : Prop :=
  config.backend = backend ∧ (config.place env).location = place.location

end StoreConfig

namespace Store

variable {env : Surroundings} {config : StoreConfig} {backend : Backend}

theorem preserves_openOrCreate (h : config.At env backend place) :
    Preserves (backend.Accounted place) (At backend place) (openOrCreate env config) := by
  obtain ⟨rfl, hl⟩ := h
  rw [← Backend.accounted_congr hl]
  obtain ⟨backend, path⟩ := config
  cases backend with
  | file =>
      refine (DirectoryStore.preserves_openAt _).map _ fun store hstore => ⟨rfl, ?_⟩
      exact (congrArg Place.location hstore).trans hl
  | sqlite =>
      refine (DatabaseStore.preserves_openAt _).map _ fun store hstore => ⟨rfl, ?_⟩
      exact (congrArg Place.location hstore).trans hl

theorem preserves_openExisting (h : config.At env backend place) :
    Preserves (backend.Accounted place) (At backend place) (openExisting env config) := by
  intro disk hdisk
  rcases openExisting_eq env config disk with ⟨e, hopen⟩ | hopen <;> rw [hopen]
  · exact ⟨hdisk, nofun⟩
  · exact preserves_openOrCreate h disk hdisk

theorem preserves_load (h : config.At env backend place) (input : String) :
    Preserves (backend.Accounted place) (fun _ => True) (load env config input) := by
  have hread : Preserves (backend.Accounted place) (fun _ => True) (readInput env input) :=
    .of_same fun disk => by rw [readInput_eq]
  rw [load_eq_bind]
  refine hread.bind fun records _ => (preserves_openOrCreate h).bind fun store hstore => ?_
  refine (store.preserves_loadMetadata env).bind fun m _ => ?_
  refine (preserves_insert hstore records).bind fun inserted hinserted => ?_
  exact (preserves_saveMetadata hinserted _).bind fun saved _ => saved.preserves_summary _ _

theorem preserves_info (h : config.At env backend place) :
    Preserves (backend.Accounted place) (fun _ => True) (info env config) :=
  (preserves_openExisting h).bind fun store _ =>
    (store.preserves_loadMetadata env).bind fun m _ => store.preserves_summary m none

end Store

end RecordSearch

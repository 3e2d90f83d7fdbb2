import RecordSearch.Proofs.Store.Contents

/-!
# Stores as ledgers

What a store holds as a sequence of records and the metadata saved last. A disk on which a store stands
with a ledger is what every operation of that store leaves behind, in files as in a database.
-/

namespace RecordSearch

/-- The records of a store in the order in which they came, and the metadata saved last. -/
structure Ledger where
  records : List Record := []
  metadata : Option StoreMeta := none
  deriving DecidableEq, Repr

namespace Ledger

def insert (records : List Record) (ledger : Ledger) : Ledger :=
  { ledger with records := ledger.records ++ records }

def save (m : StoreMeta) (ledger : Ledger) : Ledger := { ledger with metadata := some m }

def count (table : RecordTable) (ledger : Ledger) : Nat := ledger.records.countP (·.table == table)

/-- The records in a scope that are accepted, each as often as it was inserted. -/
def find (accepts : Json → Bool) (scope : Scope) (ledger : Ledger) : List Record :=
  ledger.records.filter fun r => r.inScope scope && accepts r.toJson

def loadMetadata (now : UInt64) (ledger : Ledger) : StoreMeta := ledger.metadata.getD (.fresh now)

/-- The metadata is of the version of the format that the program knows. -/
def Supported (ledger : Ledger) : Prop := ∀ m, ledger.metadata = some m → m.schemaVersion = schemaVersion

theorem supported_empty : Supported {} := nofun

theorem Supported.loadMetadata {ledger : Ledger} (h : ledger.Supported) (now : UInt64) :
    (ledger.loadMetadata now).schemaVersion = schemaVersion := by
  unfold Ledger.loadMetadata
  cases hm : ledger.metadata with
  | none => rfl
  | some m => exact h m hm

end Ledger

/-! ## Where stores are made -/

namespace Backend

/-- The directories that a store makes if they do not exist. -/
def directories (place : Place) : Backend → List Location
  | .file => DirectoryStore.directories place
  | .sqlite => place.way

/-- The files that a store writes. -/
def files (place : Place) : Backend → List Location
  | .file => DirectoryStore.files place
  | .sqlite => [place.location]

def own (place : Place) (backend : Backend) : List Location :=
  backend.directories place ++ backend.files place

/-- A store opened by that path keeps what it has in files. -/
def InFiles (path : String) (backend : Backend) : Prop := backend = .sqlite → DatabaseStore.NamesFile path

instance (path : String) (backend : Backend) : Decidable (backend.InFiles path) :=
  inferInstanceAs (Decidable (_ → _))

theorem location_mem_own (place : Place) (backend : Backend) : place.location ∈ backend.own place := by
  cases backend <;> simp [own, directories, files, DirectoryStore.directories]

/-- On the disk there is nothing where the store is to keep its files, nor in its way. -/
structure Vacant (place : Place) (disk : Disk) (backend : Backend) : Prop where
  inFiles : backend.InFiles place.path
  passable : Disk.Passable (backend.directories place) disk
  vacant : ∀ l ∈ backend.files place, disk.content? l = none
  apart : ∀ l ∈ backend.files place, l ∉ backend.directories place

theorem Vacant.congr {place : Place} {disk disk' : Disk} {backend : Backend} (h : backend.Vacant place disk)
    (he : ∀ l ∈ backend.own place, disk'.content? l = disk.content? l) : backend.Vacant place disk' where
  inFiles := h.inFiles
  passable l hl := he l (List.mem_append_left _ hl) ▸ h.passable l hl
  vacant l hl := (he l (List.mem_append_right _ hl)).trans (h.vacant l hl)
  apart := h.apart

end Backend

variable {place : Place} {disk disk' : Disk} {ledger : Ledger} {records : List Record} {m : StoreMeta}

/-! ## Directories -/

namespace DirectoryStore

/-- The directory of the store holds just what the ledger says. -/
structure Stands (place : Place) (ledger : Ledger) (disk : Disk) : Prop where
  made : Disk.Made (directories place) disk
  records : ∃ text : Option (List Char), disk.content? (recordsPlace place).location = text.map .text ∧
    text.getD [] = ledger.records.flatMap Record.line
  metadata : disk.content? (metadataPlace place).location = ledger.metadata.map fun m => .text m.print
  draft : disk.content? (draftPlace place).location = none

theorem Stands.location (h : Stands place ledger disk) : disk.content? place.location = some .directory :=
  h.made _ (List.mem_append_right _ (List.mem_singleton_self _))

theorem Stands.foundRecords (h : Stands place ledger disk) :
    foundRecords place (disk.content? (recordsPlace place).location) = .ok ledger.records := by
  obtain ⟨text, htext, hlines⟩ := h.records
  rw [htext, foundRecords_text, hlines, lines_flatMap_line, recordsOfLines_print]
  rfl

/-- What stands with a ledger is found as the ledger says, unless its metadata is of another version. -/
theorem Stands.openAt (h : Stands place ledger disk) :
    openAt place disk =
      ((accepted ledger.metadata).map fun metadata => ⟨place, metadata, ledger.records⟩, disk) := by
  rw [openAt_eq (Disk.makeDirectories_of_made h.made), found, h.metadata, foundMetadata_print, h.foundRecords]
  cases accepted ledger.metadata <;> rfl

theorem accepted_of_supported (h : ledger.Supported) : accepted ledger.metadata = .ok ledger.metadata := by
  cases hm : ledger.metadata with
  | none => rfl
  | some m => rw [accepted, StoreMeta.supported_eq_ok (h m hm)]; rfl

theorem accepted_of_not_supported (h : ¬ ledger.Supported) : ∃ e, accepted ledger.metadata = .error e := by
  unfold Ledger.Supported at h
  cases hm : ledger.metadata with
  | none => exact absurd (fun m hs => nomatch hm.symm.trans hs) h
  | some m =>
      have hv : m.schemaVersion ≠ schemaVersion := fun hv =>
        h fun m' hs => Option.some.inj (hm.symm.trans hs) ▸ hv
      exact ⟨_, congrArg (Except.map some) (StoreMeta.supported_eq_error hv)⟩

theorem exists_openAt (h : Backend.file.Vacant place disk) :
    ∃ made, DirectoryStore.openAt place disk = (.ok ⟨place, none, []⟩, made) ∧ Stands place {} made ∧
      Disk.AgreeOff (directories place) disk made := by
  obtain ⟨made, hd⟩ := Disk.exists_makeDirectories h.passable
  have hagree := Disk.agreeOff_of_makeDirectories hd
  have hfiles : ∀ l ∈ files place, made.content? l = none := fun l hl =>
    (hagree l (h.apart l hl)).trans (h.vacant l hl)
  have hstands : Stands place {} made :=
    ⟨Disk.made_of_makeDirectories hd, ⟨none, hfiles _ (by simp [files]), rfl⟩, hfiles _ (by simp [files]),
      hfiles _ (by simp [files])⟩
  refine ⟨made, ?_, hstands, hagree⟩
  rw [openAt_eq hd, ← openAt_eq (Disk.makeDirectories_of_made hstands.made), hstands.openAt]
  rfl

theorem Stands.exists_insert (store : DirectoryStore) (h : Stands store.place ledger disk)
    (records : List Record) :
    ∃ disk', store.insert records disk =
        (.ok { store with records := store.records ++ records }, disk') ∧
      Stands store.place (ledger.insert records) disk' ∧ Disk.AgreeOff (files store.place) disk disk' := by
  obtain ⟨text, htext, hlines⟩ := h.records
  obtain ⟨disk', hinsert, hrecords, hagree, hstays⟩ := DirectoryStore.exists_insert h.location htext records
  refine ⟨disk', hinsert, ⟨hstays _ h.made, ⟨some _, hrecords, ?_⟩, ?_, ?_⟩, hagree.mono (by simp [files])⟩
  · rw [Option.getD_some, hlines, Ledger.insert, List.flatMap_append]
  · rw [hagree _ (by simpa using metadataPlace_ne_recordsPlace store.place)]
    exact h.metadata
  · rw [hagree _ (by simpa using draftPlace_ne_recordsPlace store.place)]
    exact h.draft

theorem Stands.exists_saveMetadata (store : DirectoryStore) (h : Stands store.place ledger disk)
    (m : StoreMeta) :
    ∃ disk', store.saveMetadata m disk = (.ok { store with metadata := some m }, disk') ∧
      Stands store.place (ledger.save m) disk' ∧ Disk.AgreeOff (files store.place) disk disk' := by
  have hmeta : disk.content? (metadataPlace store.place).location ≠ some .directory := by
    rw [h.metadata]
    cases ledger.metadata <;> nofun
  obtain ⟨disk', hsave, hsaved, hdraft, hagree, hstays⟩ :=
    DirectoryStore.exists_saveMetadata h.location (by rw [h.draft]; nofun) hmeta m
  refine ⟨disk', hsave, ⟨hstays _ h.made, ?_, hsaved, hdraft⟩, hagree.mono (by simp [files])⟩
  rw [hagree _ (by simp [(metadataPlace_ne_recordsPlace _).symm, (draftPlace_ne_recordsPlace _).symm])]
  exact h.records

end DirectoryStore

/-! ## Databases -/

theorem Database.addRecords_metadata (records : List Record) (db : Database) :
    (db.addRecords records).metadata = db.metadata := by
  induction records generalizing db with
  | nil => rfl
  | cons r records ih => exact ih _

theorem RecordRow.AllHold.countP {rows : List RecordRow} {held : List Record}
    (h : RecordRow.AllHold rows held) (table : RecordTable) :
    rows.countP (·.entity == table.name) = held.countP (·.table == table) := by
  fun_induction RecordRow.AllHold rows held with
  | case1 => rfl
  | case2 row rows r held ih =>
      have hrow : (row.entity == table.name) = (r.table == table) := by
        rw [h.1.entity, Bool.eq_iff_iff, beq_iff_eq, beq_iff_eq, RecordTable.name_inj]
      rw [List.countP_cons, List.countP_cons, ih h.2, hrow]
  | case3 => exact h.elim

namespace DatabaseStore

/-- The database of the store holds just what the ledger says. -/
structure Stands (place : Place) (ledger : Ledger) (disk : Disk) : Prop where
  named : NamesFile place.path
  made : Disk.Made place.way disk
  database : ∃ db, disk.content? place.location = some (.database db) ∧
    RecordRow.AllHold db.records ledger.records ∧ db.metadata = (ledger.metadata.map rowsOfMetadata).getD []

theorem Stands.openAt (h : Stands place ledger disk) : openAt place disk = (.ok ⟨place, none⟩, disk) := by
  obtain ⟨db, hc, _⟩ := h.database
  exact openAt_of_database h.named.1 h.made hc

theorem exists_openAt (h : Backend.sqlite.Vacant place disk) :
    ∃ made, DatabaseStore.openAt place disk = (.ok ⟨place, none⟩, made) ∧ Stands place {} made ∧
      Disk.AgreeOff (place.way ++ [place.location]) disk made := by
  obtain ⟨made, hd⟩ := Disk.exists_makeDirectories h.passable
  have hagree := Disk.agreeOff_of_makeDirectories hd
  have hfile : place.location ∈ Backend.sqlite.files place := List.mem_singleton_self _
  have hnone := (hagree _ (h.apart _ hfile)).trans (h.vacant _ hfile)
  have hne : place.location ≠ [] := Disk.ne_nil_of_not_directory (by rw [hnone]; nofun)
  refine ⟨Dictionary.insert made place.location (.database {}), ?_,
    ⟨h.inFiles rfl, ?_, {}, ?_, trivial, rfl⟩, ?_⟩
  · have hchange : Action.change (·.makeDirectories place.way) disk = (.ok (), made) :=
      Action.change_of_some hd
    rw [openAt_of_file (h.inFiles rfl).1, openFile, Action.bind_of_ok hchange, Action.get_bind, hnone]
    rfl
  · exact (Disk.made_of_makeDirectories hd).insert (by rw [hnone]; nofun) _
  · exact Disk.content?_insert hne
  · exact (hagree.mono (List.subset_append_left ..)).trans
      (.insert made (List.mem_append_right _ (List.mem_singleton_self _)) _)

theorem Stands.write {db db' : Database} (h : Stands place ledger disk)
    (hc : disk.content? place.location = some (.database db)) {ledger' : Ledger}
    (hr : RecordRow.AllHold db'.records ledger'.records)
    (hm : db'.metadata = (ledger'.metadata.map rowsOfMetadata).getD []) :
    Stands place ledger' (Dictionary.insert disk place.location (.database db')) :=
  ⟨h.named, h.made.insert (by rw [hc]; nofun) _, db', Disk.content?_insert (location_ne_nil hc), hr, hm⟩

theorem Stands.exists_insert (h : Stands place ledger disk) (records : List Record) :
    ∃ disk', DatabaseStore.insert ⟨place, none⟩ records disk = (.ok ⟨place, none⟩, disk') ∧
      Stands place (ledger.insert records) disk' ∧ Disk.AgreeOff [place.location] disk disk' := by
  obtain ⟨db, hc, hrows, hmetadata⟩ := h.database
  exact ⟨_, insert_eq (database?_eq_some_iff.mpr hc) records,
    h.write hc (Database.addRecords_hold hrows) ((Database.addRecords_metadata ..).trans hmetadata),
    .insert disk (List.mem_singleton_self _) _⟩

theorem Stands.exists_saveMetadata (h : Stands place ledger disk) (m : StoreMeta) :
    ∃ disk', DatabaseStore.saveMetadata ⟨place, none⟩ m disk = (.ok ⟨place, none⟩, disk') ∧
      Stands place (ledger.save m) disk' ∧ Disk.AgreeOff [place.location] disk disk' := by
  obtain ⟨db, hc, hrows, _⟩ := h.database
  refine ⟨_, saveMetadata_eq (database?_eq_some_iff.mpr hc) m, ?_,
    .insert disk (List.mem_singleton_self _) _⟩
  exact h.write hc hrows rfl

theorem Stands.loadMetadata (h : Stands place ledger disk) (hs : ledger.Supported) (now : UInt64) :
    DatabaseStore.loadMetadata ⟨place, none⟩ now disk = (.ok (ledger.loadMetadata now), disk) := by
  obtain ⟨db, hc, _, hmetadata⟩ := h.database
  have hrows : metadataOfRows now db.metadata = .ok (ledger.loadMetadata now) := by
    rw [hmetadata, Ledger.loadMetadata]
    cases hm : ledger.metadata with
    | none => rfl
    | some m =>
        rw [Option.map_some, Option.getD_some, metadataOfRows_rowsOfMetadata,
          StoreMeta.supported_eq_ok (hs m hm), Option.getD_some]
  rw [loadMetadata_eq (database?_eq_some_iff.mpr hc), hrows]

theorem Stands.count (h : Stands place ledger disk) (table : RecordTable) :
    DatabaseStore.count ⟨place, none⟩ table disk = (.ok (ledger.count table), disk) := by
  obtain ⟨db, hc, hrows, _⟩ := h.database
  rw [count_eq (database?_eq_some_iff.mpr hc), hrows.countP]
  rfl

theorem Stands.find {scope : Scope} {filter : Filter} (h : Stands place ledger disk)
    (hf : filter.WellTyped scope) :
    DatabaseStore.find ⟨place, none⟩ scope filter disk =
      (.ok (ledger.find (filter.acceptsBy matchesUntilNull) scope), disk) := by
  obtain ⟨db, hc, hrows, _⟩ := h.database
  exact find_eq (database?_eq_some_iff.mpr hc) hrows hf

end DatabaseStore

/-! ## Stores of both kinds -/

/-- An open store that has seen all that the ledger says. -/
def Ledger.store (backend : Backend) (place : Place) (ledger : Ledger) : Store :=
  match backend with
  | .file => .directory ⟨place, ledger.metadata, ledger.records⟩
  | .sqlite => .database ⟨place, none⟩

namespace Backend

variable {backend : Backend}

/-- Whether a search in a store of the kind accepts a document. -/
def accepts : Backend → Json → Filter → Bool
  | .file => Filter.accepts
  | .sqlite => Filter.acceptsBy matchesUntilNull

def Stands (place : Place) (ledger : Ledger) (disk : Disk) : Backend → Prop
  | .file => DirectoryStore.Stands place ledger disk
  | .sqlite => DatabaseStore.Stands place ledger disk

theorem Stands.made (h : backend.Stands place ledger disk) : Disk.Made (backend.directories place) disk := by
  cases backend with
  | file => exact DirectoryStore.Stands.made h
  | sqlite => exact DatabaseStore.Stands.made h

/-- A store stands when nothing that belongs to it changes. -/
theorem Stands.congr (h : backend.Stands place ledger disk)
    (he : ∀ l ∈ backend.own place, disk'.content? l = disk.content? l) :
    backend.Stands place ledger disk' := by
  have hmade : Disk.Made (backend.directories place) disk' := fun l hl =>
    (he l (List.mem_append_left _ hl)).trans (h.made l hl)
  cases backend with
  | file =>
      have hfile : ∀ l ∈ DirectoryStore.files place, disk'.content? l = disk.content? l := fun l hl =>
        he l (List.mem_append_right _ hl)
      simp only [DirectoryStore.files, List.mem_cons, List.not_mem_nil, or_false, forall_eq_or_imp,
        forall_eq] at hfile
      obtain ⟨hrecords, hmetadata, hdraft⟩ := hfile
      exact ⟨hmade, hrecords ▸ h.records, hmetadata.trans h.metadata, hdraft.trans h.draft⟩
  | sqlite =>
      have hfile := he place.location (List.mem_append_right _ (List.mem_singleton_self _))
      exact ⟨h.named, hmade, hfile ▸ h.database⟩

theorem Vacant.exists_openOrCreate (env : Surroundings) {config : StoreConfig}
    (h : config.backend.Vacant (config.place env) disk) :
    ∃ made, Store.openOrCreate env config disk =
        (.ok (({} : Ledger).store config.backend (config.place env)), made) ∧
      config.backend.Stands (config.place env) {} made ∧
      Disk.AgreeOff (config.backend.own (config.place env)) disk made := by
  obtain ⟨backend, path⟩ := config
  cases backend with
  | file =>
      obtain ⟨made, hopen, hstands, hagree⟩ := DirectoryStore.exists_openAt h
      exact ⟨made, Action.map_of_ok _ hopen, hstands, hagree.mono (List.subset_append_left ..)⟩
  | sqlite =>
      obtain ⟨made, hopen, hstands, hagree⟩ := DatabaseStore.exists_openAt h
      exact ⟨made, Action.map_of_ok _ hopen, hstands, hagree⟩

theorem Stands.openOrCreate (env : Surroundings) {config : StoreConfig}
    (h : config.backend.Stands (config.place env) ledger disk) (hs : ledger.Supported) :
    Store.openOrCreate env config disk =
      (.ok (ledger.store config.backend (config.place env)), disk) := by
  obtain ⟨backend, path⟩ := config
  cases backend with
  | file =>
      have hopen := DirectoryStore.Stands.openAt h
      rw [DirectoryStore.accepted_of_supported hs] at hopen
      exact Action.map_of_ok _ hopen
  | sqlite => exact Action.map_of_ok _ (DatabaseStore.Stands.openAt h)

theorem Stands.exists_insert (h : backend.Stands place ledger disk) (records : List Record) :
    ∃ disk', (ledger.store backend place).insert records disk =
        (.ok ((ledger.insert records).store backend place), disk') ∧
      backend.Stands place (ledger.insert records) disk' ∧
      Disk.AgreeOff (backend.own place) disk disk' := by
  cases backend with
  | file =>
      obtain ⟨disk', hinsert, hstands, hagree⟩ :=
        DirectoryStore.Stands.exists_insert ⟨place, ledger.metadata, ledger.records⟩ h records
      exact ⟨disk', Action.map_of_ok _ hinsert, hstands, hagree.mono (List.subset_append_right ..)⟩
  | sqlite =>
      obtain ⟨disk', hinsert, hstands, hagree⟩ :=
        DatabaseStore.Stands.exists_insert h records
      exact ⟨disk', Action.map_of_ok _ hinsert, hstands, hagree.mono (List.subset_append_right ..)⟩

theorem Stands.exists_saveMetadata (h : backend.Stands place ledger disk) (m : StoreMeta) :
    ∃ disk', (ledger.store backend place).saveMetadata m disk =
        (.ok ((ledger.save m).store backend place), disk') ∧
      backend.Stands place (ledger.save m) disk' ∧
      Disk.AgreeOff (backend.own place) disk disk' := by
  cases backend with
  | file =>
      obtain ⟨disk', hsave, hstands, hagree⟩ :=
        DirectoryStore.Stands.exists_saveMetadata ⟨place, ledger.metadata, ledger.records⟩ h m
      exact ⟨disk', Action.map_of_ok _ hsave, hstands, hagree.mono (List.subset_append_right ..)⟩
  | sqlite =>
      obtain ⟨disk', hsave, hstands, hagree⟩ :=
        DatabaseStore.Stands.exists_saveMetadata h m
      exact ⟨disk', Action.map_of_ok _ hsave, hstands, hagree.mono (List.subset_append_right ..)⟩

theorem Stands.loadMetadata (env : Surroundings) (h : backend.Stands place ledger disk)
    (hs : ledger.Supported) :
    (ledger.store backend place).loadMetadata env disk = (.ok (ledger.loadMetadata env.now), disk) := by
  cases backend with
  | file => rfl
  | sqlite => exact DatabaseStore.Stands.loadMetadata h hs env.now

theorem Stands.count (h : backend.Stands place ledger disk) (table : RecordTable) :
    (ledger.store backend place).count table disk = (.ok (ledger.count table), disk) := by
  cases backend with
  | file => rfl
  | sqlite => exact DatabaseStore.Stands.count h table

theorem Stands.find {scope : Scope} {filter : Filter} (h : backend.Stands place ledger disk)
    (hf : filter.WellTyped scope) :
    (ledger.store backend place).find scope filter disk =
      (.ok (ledger.find (backend.accepts · filter) scope), disk) := by
  cases backend with
  | file => rfl
  | sqlite => exact DatabaseStore.Stands.find h hf

end Backend

end RecordSearch

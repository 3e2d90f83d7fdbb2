import RecordSearch.Proofs.Store.Directory
import RecordSearch.Proofs.Store.Search
import RecordSearch.Store.Basic

/-!
# What stores hold

A new store holds nothing; each insert adds its records behind those that the store holds; a search
gives those of the held records that are in scope and accepted, in their order.
-/

namespace RecordSearch

/-- Where the store is, seen from the surroundings. -/
def StoreConfig.place (env : Surroundings) (config : StoreConfig) : Place :=
  Place.ofPath env.workingDirectory config.path

/-! ## Databases -/

/-- The rows that are added hold the records. -/
theorem Database.exists_addRecords (records : List Record) (db : Database) :
    ∃ rows, (db.addRecords records).records = db.records ++ rows ∧ RecordRow.AllHold rows records := by
  induction records generalizing db with
  | nil => exact ⟨[], (List.append_nil _).symm, trivial⟩
  | cons r records ih =>
      obtain ⟨rows, hrows, hall⟩ := ih (db.addRow r.table.name (r.variant?.map (·.name)) r.print)
      refine ⟨⟨db.nextId, r.table.name, r.variant?.map (·.name), r.print⟩ :: rows, ?_, ⟨rfl, rfl, rfl⟩, hall⟩
      exact hrows.trans (List.append_assoc ..)

theorem Database.addRecords_hold {records held : List Record} {db : Database}
    (h : RecordRow.AllHold db.records held) :
    RecordRow.AllHold (db.addRecords records).records (held ++ records) := by
  obtain ⟨rows, hrows, hall⟩ := db.exists_addRecords records
  rw [hrows]
  exact h.append hall

namespace DatabaseStore

variable {store : DatabaseStore} {place : Place} {disk disk' : Disk} {db : Database}
  {held records : List Record}

theorem openAt_of_private (h : place.path ∈ privateNames) (disk : Disk) :
    openAt place disk = (.ok ⟨place, some {}⟩, disk) := by
  rw [openAt, if_pos h]
  rfl

theorem openAt_of_file (hp : place.path ∉ privateNames) : openAt place = openFile place := if_neg hp

theorem openAt_of_database (hp : place.path ∉ privateNames) (hd : Disk.Made place.way disk)
    (hc : disk.content? place.location = some (.database db)) :
    openAt place disk = (.ok ⟨place, none⟩, disk) := by
  have hmade := Disk.makeDirectories_of_made hd
  rw [openAt_of_file hp, openFile, Action.bind_of_ok (Action.change_of_some hmade), Action.get_bind, hc]
  rfl

/-- The database of a store that keeps it in a file. -/
theorem database?_eq_some_iff :
    database? ⟨place, none⟩ disk = some db ↔ disk.content? place.location = some (.database db) := by
  rw [database?]
  rcases disk.content? place.location with _ | _ | _ | _ | found <;> simp

theorem read_eq (h : store.database? disk = some db) : store.read disk = (.ok db, disk) := by
  rw [read, Action.get_bind, h]
  rfl

theorem read_of_none (h : store.database? disk = none) : store.read disk = (.error .database, disk) := by
  rw [read, Action.get_bind, h]
  rfl

theorem location_ne_nil {l : Location} (h : disk.content? l = some (.database db)) : l ≠ [] :=
  Disk.ne_nil_of_not_directory (by rw [h]; nofun)

/-- What is written is the database of the store afterwards. -/
theorem exists_write (h : store.database? disk = some db) (db' : Database) :
    ∃ next disk', store.write db' disk = (.ok next, disk') ∧ next.database? disk' = some db' := by
  obtain ⟨place, own⟩ := store
  cases own with
  | some _ => exact ⟨_, disk, rfl, rfl⟩
  | none =>
      have hne := location_ne_nil (database?_eq_some_iff.mp h)
      exact ⟨_, _, rfl, database?_eq_some_iff.mpr (Disk.content?_insert hne)⟩

theorem insert_eq (h : store.database? disk = some db) (records : List Record) :
    store.insert records disk = store.write (db.addRecords records) disk := by
  rw [insert, Action.bind_of_ok (read_eq h)]

theorem loadMetadata_eq (h : store.database? disk = some db) (now : UInt64) :
    store.loadMetadata now disk = (metadataOfRows now db.metadata, disk) := by
  rw [loadMetadata, Action.bind_of_ok (read_eq h)]
  cases metadataOfRows now db.metadata <;> rfl

theorem saveMetadata_eq (h : store.database? disk = some db) (m : StoreMeta) :
    store.saveMetadata m disk = store.write { db with metadata := rowsOfMetadata m } disk := by
  rw [saveMetadata, Action.bind_of_ok (read_eq h)]

theorem count_eq (h : store.database? disk = some db) (table : RecordTable) :
    store.count table disk = (.ok (db.records.countP (·.entity == table.name)), disk) := by
  rw [count, Action.bind_of_ok (read_eq h)]
  rfl

theorem exists_insert_holds (h : store.database? disk = some db) (hh : RecordRow.AllHold db.records held)
    (records : List Record) :
    ∃ next disk' db', store.insert records disk = (.ok next, disk') ∧ next.database? disk' = some db' ∧
      RecordRow.AllHold db'.records (held ++ records) := by
  obtain ⟨next, disk', hwrite, hnext⟩ := exists_write h _
  exact ⟨next, disk', _, (insert_eq h records).trans hwrite, hnext, Database.addRecords_hold hh⟩

theorem find_eq {scope : Scope} {filter : Filter} (h : store.database? disk = some db)
    (hh : RecordRow.AllHold db.records held) (hf : filter.WellTyped scope) :
    store.find scope filter disk =
      (.ok (held.filter fun r => r.inScope scope && filter.acceptsBy matchesUntilNull r.toJson), disk) := by
  obtain ⟨selected, hs, hall⟩ := hh.select hf
  have hselect : db.select (Clause.ofSearch scope filter) = .ok selected := hs
  rw [find, Action.bind_of_ok (read_eq h), hselect]
  simp only [hall.recordsOfRows]
  rfl

/-- A database that is opened where nothing was has no rows. -/
theorem openAt_holds_nil (h : disk.content? place.location = none)
    (ho : openAt place disk = (.ok store, disk')) :
    ∃ db, store.database? disk' = some db ∧ RecordRow.AllHold db.records [] := by
  by_cases hp : place.path ∈ privateNames
  · rw [openAt_of_private hp] at ho
    cases ho
    exact ⟨{}, rfl, trivial⟩
  · rw [openAt_of_file hp] at ho
    obtain ⟨_, d, hd, ho⟩ := Action.bind_eq_ok ho
    have hl : place.location ≠ [] := Disk.ne_nil_of_not_directory (by rw [h]; nofun)
    rw [Action.get_bind] at ho
    rcases Disk.content?_makeDirectories (Action.change_eq_ok hd) place.location with hc | hc
    · rw [h] at hc
      rw [hc] at ho
      cases ho
      exact ⟨{}, database?_eq_some_iff.mpr (Disk.content?_insert hl), trivial⟩
    · rw [hc] at ho
      cases ho

end DatabaseStore

/-! ## Directories -/

namespace DirectoryStore

variable {store : DirectoryStore} {disk disk' : Disk} {place : Place}

/-- The file of records is there, or it can be made. -/
def Writable (store : DirectoryStore) (disk : Disk) : Prop :=
  (∃ content, disk.content? (recordsPlace store.place).location = some (.text content)) ∨
    disk.content? (recordsPlace store.place).location = none ∧
      disk.isDirectory (recordsPlace store.place).location.dropLast = true

theorem insert_of_writable (h : store.Writable disk) (records : List Record) :
    ∃ disk', store.insert records disk = (.ok { store with records := store.records ++ records }, disk') ∧
      store.Writable disk' := by
  have hl : (recordsPlace store.place).location ≠ [] := child_location_ne_nil _ _
  obtain ⟨content, happend⟩ : ∃ content, disk.appendText? (recordsPlace store.place).location
      (records.flatMap Record.line) =
        some (Dictionary.insert disk (recordsPlace store.place).location (.text content)) := by
    rcases h with ⟨content, hc⟩ | ⟨hc, hd⟩
    · exact ⟨_, by rw [Disk.appendText?, hc]⟩
    · have hnone : disk.content? (recordsPlace store.place).location =
          (none : Option (List Char)).map .text := hc
      exact ⟨_, Disk.appendText?_eq (Disk.isDirectory_iff.mp hd) hnone _⟩
  refine ⟨Dictionary.insert disk (recordsPlace store.place).location (.text content), ?_,
    .inl ⟨content, Disk.content?_insert hl⟩⟩
  rw [insert, Action.bind_of_ok (Action.change_of_some happend)]
  rfl

/-- A store that is opened where no file of records was has no records. -/
theorem openAt_records_nil (h : disk.content? (recordsPlace place).location = none)
    (ho : openAt place disk = (.ok store, disk')) : store.records = [] := by
  obtain ⟨hd, hfound⟩ := openAt_eq_ok_iff.mp ho
  obtain ⟨_, hrecords, _⟩ := found_eq_ok_iff.mp hfound
  rcases Disk.content?_makeDirectories hd (recordsPlace place).location with hc | hc
  · rw [hc, h] at hrecords
    exact (Except.ok.inj hrecords).symm
  · rw [hc] at hrecords
    cases hrecords

end DirectoryStore

/-! ## Stores of both kinds -/

namespace Store

variable {store store' : Store} {disk disk' : Disk} {held records : List Record}

/-- The open store has just these records, in this order. -/
def Holds (disk : Disk) (records : List Record) : Store → Prop
  | .directory store => store.records = records
  | .database store => ∃ db, store.database? disk = some db ∧ RecordRow.AllHold db.records records

/-- A file to which records were added when it was an empty database. -/
theorem holds_addRecords {place : Place}
    (h : disk.content? place.location = some (.database (Database.addRecords records {}))) :
    (Store.database ⟨place, none⟩).Holds disk records :=
  ⟨_, DatabaseStore.database?_eq_some_iff.mpr h, @Database.addRecords_hold records [] {} trivial⟩

/-- How a store matches patterns. -/
def matching : Store → String → Bool → String → Bool
  | .directory _ => matchesPattern
  | .database _ => matchesUntilNull

theorem Holds.find {scope : Scope} {filter : Filter} (h : store.Holds disk held)
    (hf : filter.WellTyped scope) :
    store.find scope filter disk =
      (.ok (held.filter fun r => r.inScope scope && filter.acceptsBy store.matching r.toJson), disk) := by
  cases store with
  | directory store =>
      cases h
      simp only [matching, Filter.acceptsBy_matchesPattern]
      rfl
  | database store =>
      obtain ⟨db, hc, hh⟩ := h
      exact DatabaseStore.find_eq hc hh hf

theorem Holds.insert (h : store.Holds disk held) (hi : store.insert records disk = (.ok store', disk')) :
    store'.Holds disk' (held ++ records) := by
  cases store with
  | directory store =>
      obtain ⟨next, hnext, rfl⟩ := Action.map_eq_ok hi
      obtain ⟨_, _, _, hpure⟩ := Action.bind_eq_ok hnext
      cases h
      cases hpure
      rfl
  | database store =>
      obtain ⟨db, hc, hh⟩ := h
      obtain ⟨next, d, db', hinsert, hnext⟩ := DatabaseStore.exists_insert_holds hc hh records
      cases (Action.map_of_ok Store.database hinsert).symm.trans hi
      exact ⟨db', hnext⟩

/-- Inserts lists of records one after another. -/
def insertAll (batches : List (List Record)) (store : Store) : Action Store :=
  batches.foldlM (fun store records => store.insert records) store

theorem Holds.insertAll {batches : List (List Record)} (h : store.Holds disk held)
    (hi : store.insertAll batches disk = (.ok store', disk')) :
    store'.Holds disk' (held ++ batches.flatten) := by
  induction batches generalizing store disk held with
  | nil =>
      cases hi
      simpa using h
  | cons records batches ih =>
      rw [Store.insertAll, List.foldlM_cons] at hi
      obtain ⟨next, d, hfirst, hrest⟩ := Action.bind_eq_ok hi
      have hnext := ih (h.insert hfirst) hrest
      rwa [List.append_assoc] at hnext

theorem exists_insertAll_database (database : DatabaseStore) {db : Database}
    (h : database.database? disk = some db) (batches : List (List Record)) :
    ∃ last disk', (Store.database database).insertAll batches disk = (.ok (.database last), disk') := by
  induction batches generalizing database disk db with
  | nil => exact ⟨database, disk, rfl⟩
  | cons records batches ih =>
      obtain ⟨next, d, hwrite, hnext⟩ := DatabaseStore.exists_write h _
      obtain ⟨last, disk', hrest⟩ := ih next hnext
      refine ⟨last, disk', ?_⟩
      have hinsert := Action.map_of_ok Store.database ((DatabaseStore.insert_eq h records).trans hwrite)
      rw [Store.insertAll, List.foldlM_cons]
      exact (Action.bind_of_ok hinsert).trans hrest

/-- Inserts into a store made of files succeed where its file of records can be written. -/
theorem exists_insertAll_directory (files : DirectoryStore) (h : files.Writable disk)
    (batches : List (List Record)) :
    ∃ files' disk', (Store.directory files).insertAll batches disk = (.ok (.directory files'), disk') := by
  induction batches generalizing disk files with
  | nil => exact ⟨files, disk, rfl⟩
  | cons records batches ih =>
      obtain ⟨d, hfirst, hwritable⟩ := DirectoryStore.insert_of_writable h records
      obtain ⟨files', disk', hrest⟩ := ih { files with records := files.records ++ records } hwritable
      refine ⟨files', disk', ?_⟩
      have hinsert : (Store.directory files).insert records disk =
          (.ok (.directory { files with records := files.records ++ records }), d) := by
        rw [Store.insert, map_eq_pure_bind, Action.bind_of_ok hfirst]
        rfl
      rw [Store.insertAll, List.foldlM_cons, Action.bind_of_ok hinsert]
      exact hrest

end Store

end RecordSearch

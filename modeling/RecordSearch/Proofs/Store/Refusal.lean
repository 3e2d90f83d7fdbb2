import Mathlib
import RecordSearch.Proofs.Store.Readable

/-!
# Loads that fail

A load may fail because of what stands on the disk, or because the medium gives out on the way. Before the
records are inserted nothing that can be read is lost or added, and an insert into a database that fails is
taken back. An insert into files may leave a beginning of the new lines. What fails after the insert leaves
the records inserted.
-/

namespace RecordSearch

open RecordSearch.Action (Preserves)

/-! ## What is left in files -/

namespace DirectoryStore

variable {place : Place} {store later : DirectoryStore} {records : List Record} {steps : Nat}
  {written : Option Nat} {e : StoreError} {disk opened disk' last : Disk}

theorem openUpTo_ne_ok {store : DirectoryStore} : openUpTo steps place disk ≠ (.ok store, disk') := by
  intro h
  obtain ⟨_, _, _, hthrow⟩ := Action.bind_eq_ok h
  cases hthrow

theorem openUpTo_eq_error (h : openUpTo steps place disk = (.error e, disk')) :
    disk' = disk ∨ disk.makeDirectories ((directories place).take steps) = some disk' := by
  rcases Action.bind_eq_error h with hmake | ⟨_, made, hmake, hthrow⟩
  · exact .inl (Action.change_eq_error hmake)
  · cases hthrow
    exact .inr (Action.change_eq_ok hmake)

theorem insertUpTo_ne_ok : store.insertUpTo records written opened ≠ (.ok later, disk') := by
  intro h
  cases written with
  | none => cases h
  | some n =>
      obtain ⟨_, _, _, hthrow⟩ := Action.bind_eq_ok h
      cases hthrow

theorem saveMetadataUpTo_ne_ok {m : StoreMeta} :
    store.saveMetadataUpTo m written opened ≠ (.ok later, disk') := by
  intro h
  cases written with
  | none => cases h
  | some n =>
      obtain ⟨_, _, _, hthrow⟩ := Action.bind_eq_ok h
      cases hthrow

/-- A beginning of the lines is left behind what was there, or a file that is broken off inside a character,
or nothing new. -/
theorem insertUpTo_eq_error (ho : openAt place disk = (.ok store, opened))
    (h : store.insertUpTo records written opened = (.error e, disk')) :
    disk' = opened ∨
      (∃ kept, kept <+: records.flatMap Record.line ∧ Appended place (recordsText place disk) kept disk') ∨
      disk'.content? (recordsPlace place).location = some .illegible := by
  cases written with
  | none =>
      cases h
      exact .inl rfl
  | some n =>
      rcases Action.bind_eq_error h with hwrite | ⟨_, d, hwrite, hthrow⟩
      · exact .inl (Action.change_eq_error hwrite)
      · cases hthrow
        have hwrite := Action.change_eq_ok hwrite
        rw [place_of_openAt ho] at hwrite
        rcases Disk.writeBytes?_eq_some hwrite with ⟨kept, hkept, happend⟩ | ⟨begun, _, rfl⟩
        · obtain ⟨grown, hgrown, happended⟩ := exists_appended ho kept
          cases hgrown.symm.trans happend
          exact .inr (.inl ⟨kept, hkept, happended⟩)
        · exact .inr (.inr (Disk.content?_insert (child_location_ne_nil _ _)))

theorem openAt_ne_ok_of_illegible (h : disk.content? (recordsPlace place).location = some .illegible) :
    openAt place disk ≠ (.ok store, opened) := by
  intro ho
  obtain ⟨text, htext, _⟩ := exists_text_of_openAt ho
  have hopened := (Disk.intact_of_makeDirectories (openAt_eq_ok_iff.mp ho).1).of_content h
  rw [htext] at hopened
  cases text <;> cases hopened

/-- A store that opens after an insert was broken off has the old records and behind them some first of the
new ones. -/
theorem records_of_insertUpTo (ho : openAt place disk = (.ok store, opened))
    (h : store.insertUpTo records written opened = (.error e, disk'))
    (hlater : openAt place disk' = (.ok later, last)) :
    ∃ k, later.records = store.records ++ records.take k := by
  rcases insertUpTo_eq_error ho h with rfl | ⟨kept, hkept, happended⟩ | hillegible
  · have hagain := openAt_again place disk
    rw [ho] at hagain
    cases hagain.symm.trans hlater
    exact ⟨0, by simp⟩
  · obtain ⟨text, _, hbefore, hlines⟩ := exists_text_of_openAt ho
    rw [← hbefore] at hlines
    have hread := happended.openAt
    rw [hlater] at hread
    exact recordsOfLines_append_beginning hlines hkept (mapError_eq_ok_iff.mp hread.symm)
  · exact absurd hlater (openAt_ne_ok_of_illegible hillegible)

end DirectoryStore

/-! ## What is left of a database -/

namespace DatabaseStore

variable {place : Place} {store : DatabaseStore} {records : List Record} {steps : Nat} {e : StoreError}
  {disk disk' : Disk}

theorem openUpTo_ne_ok : openUpTo steps place disk ≠ (.ok store, disk') := by
  intro h
  rw [openUpTo] at h
  split at h
  · obtain ⟨_, made, _, h⟩ := Action.bind_eq_ok h
    rw [Action.get_bind] at h
    split at h <;> cases h
  · cases h

theorem breakOff_ne_ok {later : DatabaseStore} : store.breakOff disk ≠ (.ok later, disk') := by
  rintro ⟨⟩

/-- What is left is some first of the directories, or all of them and an empty file or a database without rows
where there was none. -/
theorem openUpTo_eq_error (h : openUpTo steps place disk = (.error e, disk')) :
    disk' = disk ∨
      place.path ∉ privateNames ∧ ∃ made, disk.makeDirectories (place.way.take steps) = some made ∧
        (disk' = made ∨ place.way.length < steps ∧
          (made.content? place.location = none ∨ made.content? place.location = some (.text [])) ∧
          ∃ left : Entry, (left = .text [] ∨ left = .database {}) ∧
            disk' = Dictionary.insert made place.location left) := by
  rw [openUpTo] at h
  split at h
  · next hp =>
    rcases Action.bind_eq_error h with hmake | ⟨_, made, hmake, h⟩
    · exact .inl (Action.change_eq_error hmake)
    · refine .inr ⟨hp, made, Action.change_eq_ok hmake, ?_⟩
      rw [Action.get_bind] at h
      split at h
      · next hall =>
        cases h
        refine .inr ⟨hall.1, hall.2, _, ?_, rfl⟩
        split
        · exact .inr rfl
        · exact .inl rfl
      · cases h
        exact .inl rfl
  · cases h
    exact .inl rfl

/-- An insert that fails changes nothing. -/
theorem same_of_insert
    (h : store.insert records disk = (.error e, disk')) : disk' = disk := by
  cases hr : store.database? disk with
  | none =>
      cases (Action.bind_of_error (read_of_none hr)).symm.trans h
      rfl
  | some db =>
      obtain ⟨_, _, hwrite, _⟩ := exists_write hr (db.addRecords records)
      cases ((insert_eq hr records).trans hwrite).symm.trans h

/-- A database with just these rows stands in the file. -/
structure Filled (place : Place) (rows : List RecordRow) (disk : Disk) : Prop where
  made : Disk.Made place.way disk
  database : ∃ db, disk.content? place.location = some (.database db) ∧ db.records = rows

end DatabaseStore

/-! ## Loads stage by stage -/

namespace Store

open DirectoryStore (Appended recordsText)

variable {fault : Option Fault} {env : Surroundings} {config : StoreConfig} {path input : String}
  {records : List Record} {store inserted : Store} {m : StoreMeta} {e : StoreError}
  {disk disk' opened grown : Disk}

/-- An opening that fails leaves what can be read. -/
theorem readable_of_openOrCreateOn (h : openOrCreateOn fault env config disk = (.error e, disk')) :
    readable env config disk' = readable env config disk := by
  rw [openOrCreateOn.eq_def] at h
  split at h
  · next steps =>
    obtain ⟨backend, path⟩ := config
    cases backend with
    | file =>
        rcases DirectoryStore.openUpTo_eq_error (Action.map_eq_error h) with rfl | hmade
        · rfl
        · rw [readable_file, readable_file, DirectoryStore.openAt_of_take hmade]
    | sqlite =>
        let place := Place.ofPath env.workingDirectory path
        rcases DatabaseStore.openUpTo_eq_error (Action.map_eq_error h) with rfl | ⟨hp, made, hmade, hleft⟩
        · rfl
        · have hsame : readable env ⟨.sqlite, path⟩ made = readable env ⟨.sqlite, path⟩ disk :=
            readable_of_take hp hmade
          rcases hleft with rfl | ⟨hall, hempty, left, hleft, rfl⟩
          · exact hsame
          · -- What was missing or empty was opened as a database without rows, and what is left is, too.
            have hway : Disk.Made place.way made := by
              rw [List.take_of_length_le (Nat.le_of_lt hall)] at hmade
              exact Disk.made_of_makeDirectories hmade
            have hfile := DatabaseStore.not_directory_of_empty hempty
            have hne := Disk.ne_nil_of_not_directory hfile
            have hbefore : readable env ⟨.sqlite, path⟩ made = .ok [] := readable_empty env hp hway hempty
            have hafter : readable env ⟨.sqlite, path⟩ (Dictionary.insert made place.location left) = .ok [] := by
              rcases hleft with rfl | rfl
              · exact readable_empty env hp (hway.insert hfile _) (.inr (Disk.content?_insert hne))
              · exact readable_database env hp (hway.insert hfile _) (Disk.content?_insert hne)
            exact hafter.trans (hbefore.symm.trans hsame)
  · rw [← readable_again env config disk, h]

theorem openOrCreateOn_ne_ok (steps : Nat) :
    openOrCreateOn (some (.opening steps)) env config disk ≠ (.ok store, opened) := by
  obtain ⟨backend, path⟩ := config
  cases backend with
  | file => exact Action.map_ne_ok fun _ _ => DirectoryStore.openUpTo_ne_ok
  | sqlite => exact Action.map_ne_ok fun _ _ => DatabaseStore.openUpTo_ne_ok

theorem openOrCreateOn_eq_ok (h : openOrCreateOn fault env config disk = (.ok store, opened)) :
    openOrCreate env config disk = (.ok store, opened) := by
  rw [openOrCreateOn.eq_def] at h
  split at h
  · next steps => exact absurd h (openOrCreateOn_ne_ok steps)
  · exact h

/-! ### Before the insert -/

theorem preserves_readInputOn {P : Disk → Prop} (fault : Option Fault) (env : Surroundings)
    (input : String) : Preserves P (fun _ => True) (readInputOn fault env input) := by
  rw [readInputOn.eq_def]
  split
  · exact .throw _
  · exact .of_same fun disk => by rw [readInput_eq]

theorem preserves_loadMetadataOn {P : Disk → Prop} (fault : Option Fault) (env : Surroundings)
    (store : Store) : Preserves P (fun _ => True) (store.loadMetadataOn fault env) := by
  rw [loadMetadataOn.eq_def]
  split
  · exact .throw _
  · exact store.preserves_loadMetadata env

/-- What a load has read, opened and loaded when it comes to the insert. -/
theorem prepareOn_eq_ok (h : prepareOn fault env config input disk = (.ok (records, store, m), opened)) :
    readInput env input disk = (.ok records, disk) ∧ openOrCreate env config disk = (.ok store, opened) ∧
      store.loadMetadata env opened = (.ok m, opened) := by
  obtain ⟨_, d, hread, h⟩ := Action.bind_eq_ok h
  obtain ⟨_, _, hopen, h⟩ := Action.bind_eq_ok h
  obtain ⟨_, last, hload, h⟩ := Action.bind_eq_ok h
  cases h
  cases Action.same_of_preserves (preserves_readInputOn fault env input) hread
  cases Action.same_of_preserves (store.preserves_loadMetadataOn fault env) hload
  refine ⟨?_, openOrCreateOn_eq_ok hopen, ?_⟩
  · rw [readInputOn.eq_def] at hread
    split at hread
    · cases hread
    · exact hread
  · rw [loadMetadataOn.eq_def] at hload
    split at hload
    · cases hload
    · exact hload

/-- A load that fails before the insert leaves what can be read. -/
theorem readable_of_prepareOn (h : prepareOn fault env config input disk = (.error e, disk')) :
    readable env config disk' = readable env config disk := by
  rcases Action.bind_eq_error h with hread | ⟨_, d, hread, h⟩
  · cases Action.same_of_preserves (preserves_readInputOn fault env input) hread
    rfl
  · cases Action.same_of_preserves (preserves_readInputOn fault env input) hread
    rcases Action.bind_eq_error h with hopen | ⟨store, opened, hopen, h⟩
    · exact readable_of_openOrCreateOn hopen
    · rcases Action.bind_eq_error h with hload | ⟨_, _, _, hpure⟩
      · cases Action.same_of_preserves (store.preserves_loadMetadataOn fault env) hload
        rw [← readable_again env config disk, openOrCreateOn_eq_ok hopen]
      · cases hpure

/-! ### The insert -/

theorem insertOn_directory {files : DirectoryStore}
    (h : (directory files).insertOn fault records opened = (.error e, disk')) :
    (∃ written, files.insertUpTo records written opened = (.error e, disk')) ∨
      files.insert records opened = (.error e, disk') := by
  cases fault with
  | none => exact .inr (Action.map_eq_error h)
  | some fault =>
      cases fault with
      | inserting written => exact .inl ⟨written, Action.map_eq_error h⟩
      | _ => exact .inr (Action.map_eq_error h)

/-- An insert into a database that fails is taken back. -/
theorem insertOn_database {database : DatabaseStore}
    (h : (Store.database database).insertOn fault records opened = (.error e, disk')) : disk' = opened := by
  cases fault with
  | none => exact DatabaseStore.same_of_insert (Action.map_eq_error h)
  | some fault =>
      cases fault with
      | inserting written =>
          cases Action.map_eq_error h
          rfl
      | _ => exact DatabaseStore.same_of_insert (Action.map_eq_error h)

theorem insertOn_ne_ok (written : Option Nat) :
    store.insertOn (some (.inserting written)) records opened ≠ (.ok inserted, grown) := by
  cases store with
  | directory files => exact Action.map_ne_ok fun _ _ => DirectoryStore.insertUpTo_ne_ok
  | database db => exact Action.map_ne_ok fun _ _ => DatabaseStore.breakOff_ne_ok

theorem insertOn_eq_ok (h : store.insertOn fault records opened = (.ok inserted, grown)) :
    store.insert records opened = (.ok inserted, grown) := by
  cases fault with
  | none => exact h
  | some fault =>
      cases fault with
      | inserting written => exact absurd h (insertOn_ne_ok written)
      | _ => exact h

/-! ### After the insert -/

theorem saveMetadataOn_ne_ok {saved : Store} (written : Option Nat) :
    store.saveMetadataOn (some (.savingMetadata written)) m disk ≠ (.ok saved, disk') := by
  cases store with
  | directory files => exact Action.map_ne_ok fun _ _ => DirectoryStore.saveMetadataUpTo_ne_ok
  | database db => exact Action.map_ne_ok fun _ _ => DatabaseStore.breakOff_ne_ok

/-- What fails after the insert keeps what saving the metadata keeps. -/
theorem kept_of_concludeOn {P : Disk → Prop} {loaded : Nat}
    (h : store.concludeOn fault env m loaded grown = (.error e, disk'))
    (hsave : Preserves P (fun _ => True) (store.saveMetadataOn fault (m.touched env.now))) (hP : P grown) :
    P disk' := by
  have hconclude : Preserves P (fun _ => True) (store.concludeOn fault env m loaded) := by
    refine hsave.bind fun saved _ => ?_
    rw [summaryOn.eq_def]
    split
    · exact .throw _
    · exact saved.preserves_summary _ _
  have hleft := (hconclude grown hP).1
  rwa [h] at hleft

/-- Saving metadata in files, however far it comes, keeps the records. -/
theorem preserves_saveMetadataOn_directory {files : DirectoryStore} {content added : List Char}
    (hm : m.schemaVersion = schemaVersion) :
    Preserves (Appended files.place content added) (fun _ => True)
      ((directory files).saveMetadataOn fault m) := by
  have hsave : Preserves (Appended files.place content added) (fun _ => True)
      ((directory files).saveMetadata m) :=
    (Preserves.of_left fun _ h => h.saveMetadata hm).map _ fun _ _ => trivial
  cases fault with
  | none => exact hsave
  | some fault =>
      cases fault with
      | savingMetadata written =>
          exact (Preserves.of_left fun _ h => h.saveMetadataUpTo m written).map _ fun _ _ => trivial
      | _ => exact hsave

theorem readable_of_filled {rows : List RecordRow} (hp : path ∉ DatabaseStore.privateNames)
    (h : DatabaseStore.Filled (Place.ofPath env.workingDirectory path) rows disk) :
    readable env ⟨.sqlite, path⟩ disk = DatabaseStore.recordsOfRows rows := by
  obtain ⟨db, hc, rfl⟩ := h.database
  exact readable_database env hp h.made hc

/-- Saving metadata in a database, whether it is taken back or not, keeps the rows. -/
theorem preserves_saveMetadataOn_database {place : Place} {rows : List RecordRow} :
    Preserves (DatabaseStore.Filled place rows) (fun _ => True)
      ((database ⟨place, none⟩).saveMetadataOn fault m) := by
  have hsave : Preserves (DatabaseStore.Filled place rows) (fun _ => True)
      ((database ⟨place, none⟩).saveMetadata m) := by
    refine (Preserves.of_left fun disk h => ?_).map _ fun _ _ => trivial
    obtain ⟨db, hc, rfl⟩ := h.database
    rw [DatabaseStore.saveMetadata_eq (DatabaseStore.database?_eq_some_iff.mpr hc)]
    have hne := DatabaseStore.location_ne_nil hc
    exact ⟨h.made.insert (by rw [hc]; nofun) _, _, Disk.content?_insert hne, rfl⟩
  cases fault with
  | none => exact hsave
  | some fault =>
      cases fault with
      | savingMetadata written => exact Preserves.map (Q := fun _ => True) (.throw _) _ fun _ _ => trivial
      | _ => exact hsave

/-! ## Where a load fails -/

/-- The load fails before it inserts. -/
def FailsBefore (fault : Option Fault) (env : Surroundings) (config : StoreConfig) (input : String)
    (disk disk' : Disk) : Prop :=
  ∃ e, prepareOn fault env config input disk = (.error e, disk')

/-- The load comes as far as the records of the input, and their insert fails. -/
def FailsInserting (fault : Option Fault) (env : Surroundings) (config : StoreConfig) (input : String)
    (records : List Record) (disk disk' : Disk) : Prop :=
  ∃ store m opened e, prepareOn fault env config input disk = (.ok (records, store, m), opened) ∧
    store.insertOn fault records opened = (.error e, disk')

/-- The records of the input are inserted, and the metadata cannot be saved or the store not summed up. -/
def FailsAfter (fault : Option Fault) (env : Surroundings) (config : StoreConfig) (input : String)
    (records : List Record) (disk disk' : Disk) : Prop :=
  ∃ store m opened inserted grown e,
    prepareOn fault env config input disk = (.ok (records, store, m), opened) ∧
    store.insertOn fault records opened = (.ok inserted, grown) ∧
    inserted.concludeOn fault env m records.length grown = (.error e, disk')

theorem load_error_cases (h : loadOn fault env config input disk = (.error e, disk')) :
    FailsBefore fault env config input disk disk' ∨
      ∃ records, FailsInserting fault env config input records disk disk' ∨
        FailsAfter fault env config input records disk disk' := by
  rcases Action.bind_eq_error h with hprepare | ⟨⟨records, store, m⟩, opened, hprepare, h⟩
  · exact .inl ⟨e, hprepare⟩
  · refine .inr ⟨records, ?_⟩
    rcases Action.bind_eq_error h with hinsert | ⟨inserted, grown, hinsert, h⟩
    · exact .inl ⟨store, m, opened, e, hprepare, hinsert⟩
    · exact .inr ⟨store, m, opened, inserted, grown, e, hprepare, hinsert, h⟩

/-- Where the medium gives out no load succeeds. -/
theorem loadOn_ne_ok {summary : StoreSummary} (fault : Fault) :
    loadOn (some fault) env config input disk ≠ (.ok summary, disk') := by
  intro h
  obtain ⟨⟨records, store, m⟩, opened, hprepare, h⟩ := Action.bind_eq_ok h
  obtain ⟨inserted, grown, hinsert, h⟩ := Action.bind_eq_ok h
  obtain ⟨saved, last, hsave, hsummary⟩ := Action.bind_eq_ok h
  obtain ⟨_, _, hread, hprepare⟩ := Action.bind_eq_ok hprepare
  obtain ⟨_, _, hopen, hprepare⟩ := Action.bind_eq_ok hprepare
  obtain ⟨_, _, hload, _⟩ := Action.bind_eq_ok hprepare
  cases fault with
  | readingInput => cases hread
  | opening steps => exact openOrCreateOn_ne_ok steps hopen
  | loadingMetadata => cases hload
  | inserting written => exact insertOn_ne_ok written hinsert
  | savingMetadata written => exact saveMetadataOn_ne_ok written hsave
  | counting => cases hsummary

theorem FailsInserting.readable_database
    (h : FailsInserting fault env ⟨.sqlite, path⟩ input records disk disk') :
    readable env ⟨.sqlite, path⟩ disk' = readable env ⟨.sqlite, path⟩ disk := by
  obtain ⟨store, m, opened, e, hprepare, hinsert⟩ := h
  obtain ⟨_, hopen, _⟩ := prepareOn_eq_ok hprepare
  obtain ⟨database, _, rfl⟩ := Action.map_eq_ok hopen
  rw [insertOn_database hinsert, ← readable_again env ⟨.sqlite, path⟩ disk, hopen]

theorem FailsInserting.readable_file (h : FailsInserting fault env ⟨.file, path⟩ input records disk disk') :
    ∃ old, readable env ⟨.file, path⟩ disk = .ok old ∧
      ∀ found, readable env ⟨.file, path⟩ disk' = .ok found → ∃ k, found = old ++ records.take k := by
  obtain ⟨store, m, opened, e, hprepare, hinsert⟩ := h
  obtain ⟨_, hopen, _⟩ := prepareOn_eq_ok hprepare
  obtain ⟨files, hfiles, rfl⟩ := Action.map_eq_ok hopen
  refine ⟨files.records, by rw [Store.readable_file, hfiles]; rfl, fun found hfound => ?_⟩
  rw [Store.readable_file] at hfound
  obtain ⟨later, hlater, rfl⟩ := map_eq_ok_iff.mp hfound
  rcases insertOn_directory hinsert with ⟨written, hcut⟩ | hwhole
  · exact DirectoryStore.records_of_insertUpTo hfiles hcut (Prod.ext hlater rfl)
  · obtain ⟨_, hinserted, _⟩ := DirectoryStore.appended_of_insert hfiles records
    cases hinserted.symm.trans hwhole

/-- What fails after the insert leaves the records behind those that were there. -/
theorem FailsAfter.readable_file (h : FailsAfter fault env ⟨.file, path⟩ input records disk disk')
    (hr : records = [] ∨ Appendable (recordsText (Place.ofPath env.workingDirectory path) disk)) :
    readable env ⟨.file, path⟩ disk' = (readable env ⟨.file, path⟩ disk).map (· ++ records) := by
  obtain ⟨store, m, opened, inserted, grown, e, hprepare, hinsert, hconclude⟩ := h
  obtain ⟨_, hopen, hm⟩ := prepareOn_eq_ok hprepare
  obtain ⟨files, hfiles, rfl⟩ := Action.map_eq_ok hopen
  cases hm
  obtain ⟨_, hinserted, happended⟩ := DirectoryStore.appended_of_insert hfiles records
  cases (Action.map_of_ok Store.directory hinserted).symm.trans (insertOn_eq_ok hinsert)
  have hversion := DirectoryStore.loadMetadata_version hfiles env.now
  rw [← DirectoryStore.place_of_openAt hfiles] at happended
  have hlater := kept_of_concludeOn hconclude (preserves_saveMetadataOn_directory hversion) happended
  rw [DirectoryStore.place_of_openAt hfiles] at hlater
  obtain ⟨text, _, hbefore, hlines⟩ := DirectoryStore.exists_text_of_openAt hfiles
  rw [← hbefore] at hlines
  rw [Store.readable_file, Store.readable_file, hlater.openAt_records hlines, hfiles,
    DirectoryStore.regained, if_pos hr]
  rfl

theorem FailsAfter.readable_database (h : FailsAfter fault env ⟨.sqlite, path⟩ input records disk disk')
    (hp : path ∉ DatabaseStore.privateNames) :
    readable env ⟨.sqlite, path⟩ disk' = (readable env ⟨.sqlite, path⟩ disk).map (· ++ records) := by
  obtain ⟨store, m, opened, inserted, grown, e, hprepare, hinsert, hconclude⟩ := h
  obtain ⟨_, hopen, hm⟩ := prepareOn_eq_ok hprepare
  obtain ⟨database, hdatabase, rfl⟩ := Action.map_eq_ok hopen
  obtain ⟨hprivate, _⟩ | ⟨_, rfl, hmade, db, hc⟩ := DatabaseStore.exists_database_of_openAt hdatabase
  · exact absurd hprivate hp
  have hinserted := DatabaseStore.insert_eq (DatabaseStore.database?_eq_some_iff.mpr hc) records
  cases (Action.map_of_ok Store.database hinserted).symm.trans (insertOn_eq_ok hinsert)
  have hne := DatabaseStore.location_ne_nil hc
  have hfilled :
      DatabaseStore.Filled (Place.ofPath env.workingDirectory path) (db.addRecords records).records _ :=
    ⟨hmade.insert (by rw [hc]; nofun) _, _, Disk.content?_insert hne, rfl⟩
  have hlater := kept_of_concludeOn hconclude preserves_saveMetadataOn_database hfilled
  have hbefore := readable_again env ⟨.sqlite, path⟩ disk
  rw [hopen, Store.readable_database env hp hmade hc] at hbefore
  obtain ⟨rows, hrows, hall⟩ := db.exists_addRecords records
  rw [readable_of_filled hp hlater, ← hbefore, hrows, RecordRow.recordsOfRows_append, hall.recordsOfRows]
  cases DatabaseStore.recordsOfRows db.records <;> rfl

/-- A load may fail before the insert, in it, or after it. Before it, what can be read stays. So it does when
an insert into a database fails; when one into files fails, and the store can still be read, it has some first
of the new records behind the old ones. What fails after the insert leaves the new records behind the old ones,
provided that the store is kept in files and that a record could be appended if there was one; a private
database is gone with them. -/
theorem load_failed (h : loadOn fault env config input disk = (.error e, disk')) :
    (FailsBefore fault env config input disk disk' ∨
      ∃ records, FailsInserting fault env config input records disk disk' ∨
        FailsAfter fault env config input records disk disk') ∧
    (FailsBefore fault env config input disk disk' →
      readable env config disk' = readable env config disk) ∧
    (∀ records, FailsInserting fault env config input records disk disk' →
      (config.backend = .sqlite → readable env config disk' = readable env config disk) ∧
      (config.backend = .file → ∃ old, readable env config disk = .ok old ∧
        ∀ found, readable env config disk' = .ok found → ∃ k, found = old ++ records.take k)) ∧
    ∀ records, FailsAfter fault env config input records disk disk' →
      (config.Private → readable env config disk' = readable env config disk) ∧
      (config.backend.InFiles config.path →
        (config.backend = .file → records = [] ∨ Appendable (recordsText (config.place env) disk)) →
          readable env config disk' = (readable env config disk).map (· ++ records)) := by
  obtain ⟨backend, path⟩ := config
  refine ⟨load_error_cases h, fun ⟨e, hbefore⟩ => readable_of_prepareOn hbefore, ?_, ?_⟩
  · intro records hinserting
    constructor
    · rintro ⟨⟩
      exact hinserting.readable_database
    · rintro ⟨⟩
      exact hinserting.readable_file
  · intro records hafter
    refine ⟨fun hp => ?_, fun hfiles hr => ?_⟩
    · rw [readable_private env hp, readable_private env hp]
    · cases backend with
      | file => exact hafter.readable_file (hr rfl)
      | sqlite => exact hafter.readable_database (hfiles rfl).1

/-! ## Loads into two stores -/

/-- A directory `s` whose draft of metadata cannot be written, and a file `in` with a line for each record. -/
def blockedDisk (records : List Record) : Disk :=
  ⟨[(["s"], .directory), (["s", "meta.json.tmp"], .directory),
    (["in"], .text (records.flatMap Record.line))]⟩

/-- That disk with these lines in `s`. -/
def writtenDisk (records : List Record) : Disk :=
  Dictionary.insert (blockedDisk records) ["s", "records.jsonl"] (.text (records.flatMap Record.line))

/-- That disk with a file `d`. -/
def databaseDisk (records : List Record) (e : Entry) : Disk := Dictionary.insert (blockedDisk records) ["d"] e

/-- The store in `s`. -/
def blockedStore (records : List Record) : Store := .directory ⟨⟨"s", ["s"], [[]]⟩, none, records⟩

def unblockedStore : Store := .database ⟨⟨"d", ["d"], [[]]⟩, none⟩

section

variable (records : List Record)

theorem openOrCreate_blockedDisk :
    openOrCreate ⟨[], 0⟩ ⟨.file, "s"⟩ (blockedDisk records) = (.ok (blockedStore []), blockedDisk records) ∧
      openOrCreate ⟨[], 0⟩ ⟨.sqlite, "d"⟩ (blockedDisk records) =
        (.ok unblockedStore, databaseDisk records (.database {})) :=
  ⟨by cbv, by cbv⟩

theorem readInput_blockedDisk :
    readInput ⟨[], 0⟩ "in" (blockedDisk records) = (.ok records, blockedDisk records) := by
  have hinput : inputIn ⟨[], 0⟩ "in" (blockedDisk records) = .ok records :=
    inputIn_of_records (by cbv) rfl
  rw [readInput_eq, hinput]

theorem prepareOn_files : prepareOn none ⟨[], 0⟩ ⟨.file, "s"⟩ "in" (blockedDisk records) =
    (.ok (records, blockedStore [], .fresh 0), blockedDisk records) :=
  (Action.bind_of_ok (readInput_blockedDisk records)).trans
    (Action.bind_of_ok (openOrCreate_blockedDisk records).1)

theorem prepareOn_database : prepareOn none ⟨[], 0⟩ ⟨.sqlite, "d"⟩ "in" (blockedDisk records) =
    (.ok (records, unblockedStore, .fresh 0), databaseDisk records (.database {})) :=
  (Action.bind_of_ok (readInput_blockedDisk records)).trans
    (Action.bind_of_ok (openOrCreate_blockedDisk records).2)

theorem prepareOn_opening : prepareOn (some (.opening 2)) ⟨[], 0⟩ ⟨.sqlite, "d"⟩ "in" (blockedDisk records) =
    (.error .database, databaseDisk records (.text [])) := by
  have hopen : openOrCreateOn (some (.opening 2)) ⟨[], 0⟩ ⟨.sqlite, "d"⟩ (blockedDisk records) =
      (.error .database, databaseDisk records (.text [])) := by
    cbv
  exact (Action.bind_of_ok (readInput_blockedDisk records)).trans (Action.bind_of_error hopen)

theorem insertOn_files : (blockedStore []).insertOn none records (blockedDisk records) =
    (.ok (blockedStore records), writtenDisk records) := by
  have hinsert : DirectoryStore.insert ⟨⟨"s", ["s"], [[]]⟩, none, []⟩ records (blockedDisk records) =
      (.ok ⟨⟨"s", ["s"], [[]]⟩, none, records⟩, writtenDisk records) :=
    Action.bind_of_ok (Action.change_of_some rfl)
  exact Action.map_of_ok Store.directory hinsert

/-- An insert that fails although all of the lines were written. -/
theorem insertOn_cut {n : Nat}
    (h : Disk.firstBytes? n (records.flatMap Record.line) = some (records.flatMap Record.line)) :
    (blockedStore []).insertOn (some (.inserting (some n))) records (blockedDisk records) =
      (.error .fileSystem, writtenDisk records) := by
  let place : Place := ⟨"s", ["s"], [[]]⟩
  let file := (DirectoryStore.recordsPlace place).location
  have happend : (blockedDisk records).appendText? file (records.flatMap Record.line) =
      some (writtenDisk records) := by
    cbv
  have hwrite : Disk.writeBytes? ((blockedDisk records).appendText? file) file n
      (records.flatMap Record.line) = some (writtenDisk records) := by
    rw [Disk.writeBytes?, h]
    exact happend
  exact Action.map_of_error Store.directory (Action.bind_of_ok (Action.change_of_some hwrite))

theorem concludeOn_files (loaded : Nat) :
    (blockedStore records).concludeOn none ⟨[], 0⟩ (.fresh 0) loaded (writtenDisk records) =
      (.error .fileSystem, writtenDisk records) := by
  have hdraft : (writtenDisk records).content?
      (DirectoryStore.draftPlace ⟨"s", ["s"], [[]]⟩).location = some .directory := by
    cbv
  exact Action.bind_of_error (Action.map_of_error Store.directory
    (DirectoryStore.saveMetadata_of_directory hdraft _))

theorem insertOn_database_counting (db : Database) :
    unblockedStore.insertOn (some .counting) records (databaseDisk records (.database db)) =
      (.ok unblockedStore,
        Dictionary.insert (databaseDisk records (.database db)) ["d"] (.database (db.addRecords records))) :=
  rfl

theorem exists_concludeOn_counting (disk : Disk) (db : Database) :
    ∃ counted, unblockedStore.concludeOn (some .counting) ⟨[], 0⟩ (.fresh 0) 1
      (Dictionary.insert disk ["d"] (.database db)) = (.error .database, counted) := by
  have hc : Disk.content? (Dictionary.insert disk ["d"] (.database db)) ["d"] = some (.database db) :=
    Disk.content?_insert (by decide)
  have hsave := DatabaseStore.saveMetadata_eq
    (@DatabaseStore.database?_eq_some_iff ⟨"d", ["d"], [[]]⟩ _ db |>.mpr hc) (.fresh 0)
  exact ⟨_, Action.bind_of_ok (Action.map_of_ok Store.database hsave)⟩

/-- The metadata cannot be saved, and the lines stay. -/
theorem load_blockedDisk :
    load ⟨[], 0⟩ ⟨.file, "s"⟩ "in" (blockedDisk records) = (.error .fileSystem, writtenDisk records) :=
  (Action.bind_of_ok (prepareOn_files records)).trans
    ((Action.bind_of_ok (insertOn_files records)).trans (concludeOn_files records _))

theorem readable_blockedDisk :
    readable ⟨[], 0⟩ ⟨.file, "s"⟩ (blockedDisk records) = .ok [] ∧
      readable ⟨[], 0⟩ ⟨.sqlite, "d"⟩ (blockedDisk records) = .ok [] := by
  obtain ⟨hfiles, hdatabase⟩ := openOrCreate_blockedDisk records
  have hempty : (databaseDisk records (.database {})).content? ["d"] = some (.database {}) :=
    Disk.content?_insert (by decide)
  have hread := readAll_database
    (@DatabaseStore.database?_eq_some_iff ⟨"d", ["d"], [[]]⟩ _ _ |>.mpr hempty)
  exact ⟨congrArg Prod.fst (Action.bind_of_ok hfiles),
    congrArg Prod.fst ((Action.bind_of_ok hdatabase).trans hread)⟩

theorem readable_writtenDisk : readable ⟨[], 0⟩ ⟨.file, "s"⟩ (writtenDisk records) = .ok records := by
  let place : Place := ⟨"s", ["s"], [[]]⟩
  have hplace : Place.ofPath [] "s" = place := by decide
  have hmade : (writtenDisk records).makeDirectories (DirectoryStore.directories place) =
      some (writtenDisk records) := by
    cbv
  have hmetadata : (writtenDisk records).content? (DirectoryStore.metadataPlace place).location = none := by
    cbv
  have hrecords : (writtenDisk records).content? (DirectoryStore.recordsPlace place).location =
      (some (records.flatMap Record.line)).map .text := Disk.content?_insert (by decide)
  have hfound : DirectoryStore.found place (writtenDisk records) = .ok ⟨place, none, records⟩ := by
    rw [DirectoryStore.found, hmetadata, hrecords, DirectoryStore.foundRecords_text, Option.getD_some,
      lines_flatMap_line, recordsOfLines_print]
    rfl
  rw [readable_file, hplace, DirectoryStore.openAt_eq hmade, hfound]
  rfl

end

/-- A load that leaves an empty file for a database; one into files whose insert fails after the line was
written; one into a database that is taken back; one that cannot save its metadata; one that cannot count. -/
theorem load_failed_blocked :
    let records : List Record := [.account ⟨"al", "al@green", true⟩]
    let files : StoreConfig := ⟨.file, "s"⟩
    let database : StoreConfig := ⟨.sqlite, "d"⟩
    let start := blockedDisk records
    (loadOn (some (.opening 2)) ⟨[], 0⟩ database "in" start =
        (.error .database, databaseDisk records (.text [])) ∧
      readable ⟨[], 0⟩ database (databaseDisk records (.text [])) = readable ⟨[], 0⟩ database start) ∧
    (loadOn (some (.inserting (some 73))) ⟨[], 0⟩ files "in" start =
        (.error .fileSystem, writtenDisk records) ∧
      ∃ old k, readable ⟨[], 0⟩ files start = .ok old ∧
        readable ⟨[], 0⟩ files (writtenDisk records) = .ok (old ++ records.take k)) ∧
    (loadOn (some (.inserting none)) ⟨[], 0⟩ database "in" start =
        (.error .database, databaseDisk records (.database {})) ∧
      readable ⟨[], 0⟩ database (databaseDisk records (.database {})) = readable ⟨[], 0⟩ database start) ∧
    (load ⟨[], 0⟩ files "in" start = (.error .fileSystem, writtenDisk records) ∧
      readable ⟨[], 0⟩ files (writtenDisk records) = .ok records) ∧
    ∃ counted, loadOn (some .counting) ⟨[], 0⟩ database "in" start = (.error .database, counted) ∧
      readable ⟨[], 0⟩ database counted = .ok records := by
  intro records files database start
  obtain ⟨hempty, hvacant⟩ := readable_blockedDisk records
  have hopened : loadOn (some (.opening 2)) ⟨[], 0⟩ database "in" start = _ :=
    Action.bind_of_error (prepareOn_opening records)
  have hwhole : Disk.firstBytes? 73 (records.flatMap Record.line) = some (records.flatMap Record.line) := by
    decide
  have hcut : loadOn (some (.inserting (some 73))) ⟨[], 0⟩ files "in" start = _ :=
    (Action.bind_of_ok (prepareOn_files records)).trans (Action.bind_of_error (insertOn_cut records hwhole))
  have hbroken : unblockedStore.insertOn (some (.inserting none)) records
      (databaseDisk records (.database {})) = (.error .database, databaseDisk records (.database {})) := rfl
  have htakenBack : loadOn (some (.inserting none)) ⟨[], 0⟩ database "in" start = _ :=
    (Action.bind_of_ok (prepareOn_database records)).trans (Action.bind_of_error hbroken)
  obtain ⟨counted, hcounted⟩ := exists_concludeOn_counting (databaseDisk records (.database {}))
    (Database.addRecords records {})
  have huncounted : loadOn (some .counting) ⟨[], 0⟩ database "in" start = _ :=
    (Action.bind_of_ok (prepareOn_database records)).trans
      ((Action.bind_of_ok (insertOn_database_counting records {})).trans hcounted)
  refine ⟨⟨hopened, ?_⟩, ⟨hcut, ?_⟩, ⟨htakenBack, ?_⟩, ⟨load_blockedDisk records, ?_⟩, counted, huncounted, ?_⟩
  · exact (load_failed hopened).2.1 ⟨.database, prepareOn_opening records⟩
  · obtain ⟨old, hold, hfound⟩ := ((load_failed hcut).2.2.1 records
      ⟨_, _, _, _, prepareOn_files records, insertOn_cut records hwhole⟩).2 rfl
    obtain ⟨k, hk⟩ := hfound _ (readable_writtenDisk records)
    exact ⟨old, k, hold, (readable_writtenDisk records).trans (congrArg Except.ok hk)⟩
  · exact ((load_failed htakenBack).2.2.1 records
      ⟨_, _, _, _, prepareOn_database records, hbroken⟩).1 rfl
  · have happendable : Appendable (recordsText (Place.ofPath [] "s") start) := by decide
    have hadded := ((load_failed (load_blockedDisk records)).2.2.2 records
      ⟨_, _, _, _, _, _, prepareOn_files records, insertOn_files records, concludeOn_files records _⟩).2
        (by decide) fun _ => .inr happendable
    rwa [hempty] at hadded
  · have hadded := ((load_failed huncounted).2.2.2 records
      ⟨_, _, _, _, _, _, prepareOn_database records, insertOn_database_counting records {}, hcounted⟩).2
        (by decide) (by rintro ⟨⟩)
    rwa [hvacant] at hadded

/-- A load that cannot save its metadata has put a record into a store that had none. -/
theorem load_fails_with_records_inserted :
    let al : Record := .account ⟨"al", "al@green", true⟩
    let config : StoreConfig := ⟨.file, "s"⟩
    let blocked := load ⟨[], 0⟩ config "in" (blockedDisk [al])
    blocked.1 = .error .fileSystem ∧ readable ⟨[], 0⟩ config (blockedDisk [al]) = .ok [] ∧
      readable ⟨[], 0⟩ config blocked.2 = .ok [al] := by
  intro al config blocked
  have hblocked : blocked = (.error .fileSystem, writtenDisk [al]) := load_blockedDisk [al]
  rw [hblocked]
  exact ⟨rfl, (readable_blockedDisk [al]).1, readable_writtenDisk [al]⟩

end Store

end RecordSearch

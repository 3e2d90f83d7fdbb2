import Mathlib
import RecordSearch.Proofs.Query.Compile
import RecordSearch.Proofs.Store.Readable
import RecordSearch.Proofs.Store.Request

/-!
# Stores of another version

A store whose metadata is of another version of the format is not described and nothing is loaded into it.
A directory is not searched either; a search in a database does not look at the metadata.
-/

namespace RecordSearch

open Disk (Intact)

namespace Backend

/-- Metadata stands where the store keeps it, and what can be read of it is of another version of the
format than the program knows. -/
def Unsupported (place : Place) (disk : Disk) : Backend → Prop
  | .file => ∃ content,
      disk.content? (DirectoryStore.metadataPlace place).location = some (.text content) ∧
        ∀ m, StoreMeta.parse? content = some m → m.schemaVersion ≠ schemaVersion
  | .sqlite => DatabaseStore.NamesFile place.path ∧ ∃ db version,
      disk.content? place.location = some (.database db) ∧
        db.metadata.lookup "schema_version" = some version ∧ version ≠ schemaVersion

end Backend

namespace DirectoryStore

variable {place : Place} {disk : Disk}

theorem exists_refused (h : Backend.file.Unsupported place disk) :
    ∃ e disk', openAt place disk = (.error e, disk') := by
  obtain ⟨content, hc, hversion⟩ := h
  cases hd : disk.makeDirectories (directories place) with
  | none => exact ⟨_, _, openAt_of_blocked hd⟩
  | some made =>
      have hmade : made.content? (metadataPlace place).location = some (.text content) :=
        (Disk.intact_of_makeDirectories hd).of_content hc
      obtain ⟨e, he⟩ : ∃ e, foundMetadata place (some (.text content)) = .error e := by
        rw [foundMetadata]
        cases hm : StoreMeta.parse? content with
        | none => exact ⟨_, rfl⟩
        | some m => exact ⟨_, congrArg (Except.map some) (StoreMeta.supported_eq_error (hversion m hm))⟩
      refine ⟨e, made, ?_⟩
      rw [openAt_eq hd, found, hmade, he]
      rfl

end DirectoryStore

namespace DatabaseStore

variable {place : Place} {store : DatabaseStore} {db : Database} {disk opened : Disk}
  {rows : List (String × String)} {version : String}

/-- Opening a database that stands there leaves it as it is. -/
theorem stands_of_openAt (hp : place.path ∉ privateNames)
    (hc : disk.content? place.location = some (.database db))
    (h : openAt place disk = (.ok store, opened)) :
    store = ⟨place, none⟩ ∧ disk.Intact opened ∧ opened.content? place.location = some (.database db) := by
  cases hd : disk.makeDirectories place.way with
  | none => cases (openAt_of_blocked hp hd).symm.trans h
  | some made =>
      have hintact := Disk.intact_of_makeDirectories hd
      have hmade : made.content? place.location = some (.database db) := hintact.of_content hc
      have hopen : openAt place disk = (.ok ⟨place, none⟩, made) := by
        rw [openAt_of_file hp, openFile, Action.bind_of_ok (Action.change_of_some hd), Action.get_bind, hmade]
        rfl
      cases hopen.symm.trans h
      exact ⟨rfl, hintact, hmade⟩

theorem metadataOfRows_eq_error (h : rows.lookup "schema_version" = some version)
    (hv : version ≠ schemaVersion) (now : UInt64) :
    metadataOfRows now rows = .error (.unsupportedSchema version) := by
  have hne : rows.isEmpty = false := by
    cases rows with
    | nil => cases h
    | cons _ _ => rfl
  rw [metadataOfRows, hne, h]
  exact StoreMeta.supported_eq_error hv

end DatabaseStore

namespace Store

variable {env : Surroundings} {config : StoreConfig} {disk : Disk}

/-- A store of another version is not opened, or its metadata is refused once it is open. -/
theorem refused_of_unsupported (h : config.backend.Unsupported (config.place env) disk) :
    (∃ e disk', openOrCreate env config disk = (.error e, disk')) ∨
      ∃ store e opened, openOrCreate env config disk = (.ok store, opened) ∧ disk.Intact opened ∧
        store.loadMetadata env opened = (.error e, opened) := by
  obtain ⟨backend, path⟩ := config
  let place := Place.ofPath env.workingDirectory path
  cases backend with
  | file =>
      obtain ⟨e, disk', hopen⟩ := DirectoryStore.exists_refused h
      exact .inl ⟨e, disk', Action.map_of_error _ hopen⟩
  | sqlite =>
      obtain ⟨hnamed, db, version, hc, hlookup, hversion⟩ := h
      rcases hopen : DatabaseStore.openAt place disk with ⟨e | store, opened⟩
      · exact .inl ⟨e, opened, Action.map_of_error _ hopen⟩
      · obtain ⟨rfl, hintact, hmade⟩ := DatabaseStore.stands_of_openAt hnamed.1 hc hopen
        have hread : DatabaseStore.database? ⟨place, none⟩ opened = some db :=
          DatabaseStore.database?_eq_some_iff.mpr hmade
        have hrows := DatabaseStore.metadataOfRows_eq_error hlookup hversion env.now
        have hm : loadMetadata env (.database ⟨place, none⟩) opened =
            (.error (.unsupportedSchema version), opened) :=
          (DatabaseStore.loadMetadata_eq hread env.now).trans (congrArg (·, opened) hrows)
        exact .inr ⟨.database ⟨place, none⟩, _, opened, Action.map_of_ok _ hopen, hintact, hm⟩

theorem load_unsupported (h : config.backend.Unsupported (config.place env) disk) (input : String) :
    ∃ e disk', load env config input disk = (.error e, disk') ∧ disk.Intact disk' := by
  cases hi : inputIn env input disk with
  | error e => exact ⟨e, disk, load_of_refused hi, .refl disk⟩
  | ok records =>
      have hread : readInput env input disk = (.ok records, disk) := by rw [readInput_eq, hi]
      rw [load_eq_bind, Action.bind_of_ok hread]
      rcases refused_of_unsupported h with ⟨e, disk', ho⟩ | ⟨store, e, opened, ho, hintact, hm⟩
      · exact ⟨e, disk', Action.bind_of_error ho, openOrCreate_refused_intact ho⟩
      · refine ⟨e, opened, ?_, hintact⟩
        rw [Action.bind_of_ok ho]
        exact Action.bind_of_error hm

theorem info_unsupported (h : config.backend.Unsupported (config.place env) disk) :
    ∃ e disk', info env config disk = (.error e, disk') ∧ disk.Intact disk' := by
  rcases openExisting_eq env config disk with ⟨e, hexisting⟩ | hexisting
  · exact ⟨e, disk, Action.bind_of_error hexisting, .refl disk⟩
  · rcases refused_of_unsupported h with ⟨e, disk', ho⟩ | ⟨store, e, opened, ho, hintact, hm⟩
    · exact ⟨e, disk', Action.bind_of_error (hexisting.trans ho), openOrCreate_refused_intact ho⟩
    · refine ⟨e, opened, ?_, hintact⟩
      rw [info, Action.bind_of_ok (hexisting.trans ho), Action.bind_of_error hm]

end Store

/-! ## Searches -/

namespace DatabaseStore

/-- What a search finds in rows. -/
def foundInRows (rows : List RecordRow) (scope : Scope) (filter : Filter) : Except StoreError (List Record) :=
  match Database.select.go (Clause.ofSearch scope filter) rows with
  | .error _ => .error .database
  | .ok selected => recordsOfRows selected

theorem find_eq_foundInRows {store : DatabaseStore} {db : Database} {disk : Disk}
    (h : store.database? disk = some db) (scope : Scope) (filter : Filter) :
    store.find scope filter disk = (foundInRows db.records scope filter, disk) := by
  rw [find, Action.bind_of_ok (read_eq h), foundInRows, Database.select]
  cases Database.select.go (Clause.ofSearch scope filter) db.records with
  | error _ => rfl
  | ok selected =>
      dsimp only
      cases recordsOfRows selected <;> rfl

end DatabaseStore

namespace SearchRequest

variable {env : Surroundings} {request : SearchRequest} {scope : Scope} {filter : Filter} {disk : Disk}

theorem exists_search_error_file {path : String} (hs : request.store.getD {} = ⟨.file, path⟩)
    (h : Backend.file.Unsupported (Place.ofPath env.workingDirectory path) disk) (scope : Scope)
    (filter : Filter) :
    ∃ e disk', request.search env scope filter disk = (.error e, disk') ∧ disk.Intact disk' := by
  obtain ⟨e, opened, hopen⟩ := DirectoryStore.exists_refused h
  have hcreate : Store.openOrCreate env ⟨.file, path⟩ disk = (.error e, opened) :=
    Action.map_of_error _ hopen
  rw [search, hs]
  rcases Store.openExisting_eq env ⟨.file, path⟩ disk with ⟨e', he⟩ | he
  · exact ⟨e', disk, Action.bind_of_error he, .refl disk⟩
  · exact ⟨e, opened, Action.bind_of_error (he.trans hcreate), Store.openOrCreate_refused_intact hcreate⟩

theorem search_intact_database {path : String} {db : Database}
    (hs : request.store.getD {} = ⟨.sqlite, path⟩) (hp : path ∉ DatabaseStore.privateNames)
    (hc : disk.content? (Place.ofPath env.workingDirectory path).location = some (.database db))
    (scope : Scope) (filter : Filter) : disk.Intact (request.search env scope filter disk).2 := by
  let place := Place.ofPath env.workingDirectory path
  rw [search, hs]
  rcases Store.openExisting_eq env ⟨.sqlite, path⟩ disk with ⟨e, he⟩ | he
  · rw [Action.bind_of_error he]
    exact .refl disk
  · rcases hopen : DatabaseStore.openAt place disk with ⟨e | store, opened⟩
    · have hcreate : Store.openOrCreate env ⟨.sqlite, path⟩ disk = (.error e, opened) :=
        Action.map_of_error _ hopen
      rw [Action.bind_of_error (he.trans hcreate)]
      exact Store.openOrCreate_refused_intact hcreate
    · obtain ⟨rfl, hintact, hmade⟩ := DatabaseStore.stands_of_openAt hp hc hopen
      have hcreate : Store.openOrCreate env ⟨.sqlite, path⟩ disk =
          (.ok (.database ⟨place, none⟩), opened) := Action.map_of_ok _ hopen
      have hread : DatabaseStore.database? ⟨place, none⟩ opened = some db :=
        DatabaseStore.database?_eq_some_iff.mpr hmade
      have hfind : Store.find scope filter (.database ⟨place, none⟩) opened = (_, opened) :=
        DatabaseStore.find_eq_foundInRows hread scope filter
      rw [Action.bind_of_ok (he.trans hcreate), hfind]
      exact hintact

/-- A search in a database answers what it finds in the rows, whatever the metadata says. -/
theorem run_database {path : String} {db : Database} (hs : request.store.getD {} = ⟨.sqlite, path⟩)
    (hn : StoreConfig.Named ⟨.sqlite, path⟩) (hp : path ∉ DatabaseStore.privateNames)
    (hd : Disk.Made (Place.ofPath env.workingDirectory path).way disk)
    (hc : disk.content? (Place.ofPath env.workingDirectory path).location = some (.database db))
    (hcompiled : request.compiled = .ok (scope, filter)) :
    request.run env disk =
      ((DatabaseStore.foundInRows db.records scope filter).mapError .store, disk) := by
  have hsearch : request.search env scope filter disk =
      (DatabaseStore.foundInRows db.records scope filter, disk) := by
    rw [search, hs, Action.bind_of_ok (Backend.openExisting_of_database env hn hp hd hc)]
    exact DatabaseStore.find_eq_foundInRows (DatabaseStore.database?_eq_some_iff.mpr hc) scope filter
  rw [run_of_compiled hcompiled, hsearch]

end SearchRequest

namespace Store

open SearchRequest (compiled)

variable {env : Surroundings} {config : StoreConfig} {disk : Disk}

/-- In a store of another version nothing is loaded, and it is not described. A directory of another version
is not searched either. A search in a database of another version answers what it finds in the rows. All of
these leave what stood on the disk as it was. -/
theorem unsupported_refused (h : config.backend.Unsupported (config.place env) disk) :
    (∀ input, ∃ e disk', load env config input disk = (.error e, disk') ∧ disk.Intact disk') ∧
    (∃ e disk', info env config disk = (.error e, disk') ∧ disk.Intact disk') ∧
    ∀ request : SearchRequest, request.store.getD {} = config →
      disk.Intact (request.run env disk).2 ∧
      (config.backend = .file → ∃ failure, (request.run env disk).1 = .error failure) ∧
      ∀ db scope filter, config.backend = .sqlite →
        disk.content? (config.place env).location = some (.database db) →
        config.Named → Disk.Made (config.place env).way disk →
        request.compiled = .ok (scope, filter) →
        request.run env disk =
          ((DatabaseStore.foundInRows db.records scope filter).mapError .store, disk) := by
  refine ⟨load_unsupported h, info_unsupported h, fun request hs => ?_⟩
  obtain ⟨backend, path⟩ := config
  cases backend with
  | file =>
      have hsearch := SearchRequest.exists_search_error_file hs h
      refine ⟨SearchRequest.run_intact fun scope filter => ?_,
        fun _ => SearchRequest.run_fails fun scope filter => ?_, nofun⟩
      · obtain ⟨e, disk', he, hintact⟩ := hsearch scope filter
        rwa [he]
      · obtain ⟨e, disk', he, _⟩ := hsearch scope filter
        exact ⟨e, congrArg Prod.fst he⟩
  | sqlite =>
      obtain ⟨hnamed, db, _, hc, _⟩ := h
      exact ⟨SearchRequest.run_intact (SearchRequest.search_intact_database hs hnamed.1 hc), nofun,
        fun db scope filter _ hc hn hd hcompiled =>
          SearchRequest.run_database hs hn hnamed.1 hd hc hcompiled⟩

def oldMetadata : StoreMeta := ⟨"2", "x", 0, 0⟩

/-- A database with a row for the record, and metadata of another version. -/
def oldDatabase (r : Record) : Database :=
  ⟨DatabaseStore.rowsOfMetadata oldMetadata, [⟨1, r.table.name, r.variant?.map (·.name), r.print⟩]⟩

/-- A directory `f` and a database `d` of another version. -/
def oldDisk (r : Record) : Disk :=
  ⟨[(["f"], .directory), (["f", "meta.json"], .text oldMetadata.print), (["d"], .database (oldDatabase r))]⟩

theorem unsupported_oldDisk (r : Record) :
    Backend.file.Unsupported (Place.ofPath [] "f") (oldDisk r) ∧
      Backend.sqlite.Unsupported (Place.ofPath [] "d") (oldDisk r) := by
  have hfiles : Place.ofPath [] "f" = ⟨"f", ["f"], [[]]⟩ := by decide
  have hdatabase : Place.ofPath [] "d" = ⟨"d", ["d"], [[]]⟩ := by decide
  rw [hfiles, hdatabase]
  refine ⟨⟨_, rfl, fun m hm => ?_⟩, by decide, oldDatabase r, "2", rfl, rfl, by decide⟩
  rw [StoreMeta.parse?_print] at hm
  cases hm
  decide

theorem stands_oldDisk (r : Record) :
    Disk.Made (Place.ofPath [] "d").way (oldDisk r) ∧
      (oldDisk r).content? (Place.ofPath [] "d").location = some (.database (oldDatabase r)) := by
  have hplace : Place.ofPath [] "d" = ⟨"d", ["d"], [[]]⟩ := by decide
  rw [hplace]
  refine ⟨fun l hl => ?_, rfl⟩
  rw [List.mem_singleton.mp hl]
  rfl

theorem foundInRows_oldDatabase (r : Record) (hr : r.inScope .accounts = true) :
    DatabaseStore.foundInRows (oldDatabase r).records .accounts .unrestricted = .ok [r] := by
  have hall : RecordRow.AllHold (oldDatabase r).records [r] := ⟨⟨rfl, rfl, rfl⟩, trivial⟩
  have htyped : Filter.unrestricted.WellTyped .accounts := trivial
  obtain ⟨selected, hselected, hheld⟩ := hall.select htyped
  rw [List.filter_cons_of_pos (by simp [hr, Filter.acceptsBy]), List.filter_nil] at hheld
  rw [DatabaseStore.foundInRows, hselected]
  exact hheld.recordsOfRows

/-- A search for all accounts of a store. -/
def allAccounts (config : StoreConfig) : SearchRequest := { entity := "accounts", store := some config }

theorem compiled_allAccounts (config : StoreConfig) :
    (allAccounts config).compiled = .ok (.accounts, .unrestricted) := by
  have hentity : Entity.ofName "accounts" = .ok .accounts := by cbv
  have hparse : Query.parse .user "" false = [] := by cbv
  have hcompile : Entity.accounts.compile "" false = .ok (.accounts, .unrestricted) :=
    Entity.compile_of_parse hparse rfl
  rw [SearchRequest.compiled, allAccounts, hentity]
  exact hcompile

/-- Neither store is described; the directory is not searched, and the database is. -/
theorem unsupported_refused_oldDisk :
    let al : Record := .account ⟨"al", "al@green", true⟩
    let env : Surroundings := ⟨[], 0⟩
    (∃ e disk', info env ⟨.file, "f"⟩ (oldDisk al) = (.error e, disk') ∧ (oldDisk al).Intact disk') ∧
      (∃ e disk', info env ⟨.sqlite, "d"⟩ (oldDisk al) = (.error e, disk') ∧ (oldDisk al).Intact disk') ∧
      (∃ failure, ((allAccounts ⟨.file, "f"⟩).run env (oldDisk al)).1 = .error failure) ∧
      (allAccounts ⟨.sqlite, "d"⟩).run env (oldDisk al) = (.ok [al], oldDisk al) := by
  intro al env
  obtain ⟨hfiles, hdatabase⟩ := unsupported_oldDisk al
  obtain ⟨hway, hstands⟩ := stands_oldDisk al
  obtain ⟨_, hfilesInfo, hfilesSearch⟩ := @unsupported_refused env ⟨.file, "f"⟩ (oldDisk al) hfiles
  obtain ⟨_, hdatabaseInfo, hdatabaseSearch⟩ := @unsupported_refused env ⟨.sqlite, "d"⟩ (oldDisk al) hdatabase
  obtain ⟨_, hfailure, _⟩ := hfilesSearch (allAccounts ⟨.file, "f"⟩) rfl
  obtain ⟨_, _, hanswer⟩ := hdatabaseSearch (allAccounts ⟨.sqlite, "d"⟩) rfl
  have hrun := hanswer _ _ _ rfl hstands (by decide) hway (compiled_allAccounts _)
  rw [foundInRows_oldDatabase al rfl] at hrun
  exact ⟨hfilesInfo, hdatabaseInfo, hfailure rfl, hrun⟩

/-- A record is found in a database whose metadata is of another version. -/
theorem run_finds_in_unsupported :
    let al : Record := .account ⟨"al", "al@green", true⟩
    Backend.sqlite.Unsupported (Place.ofPath [] "d") (oldDisk al) ∧
      (allAccounts ⟨.sqlite, "d"⟩).run ⟨[], 0⟩ (oldDisk al) = (.ok [al], oldDisk al) := by
  intro al
  obtain ⟨hway, hstands⟩ := stands_oldDisk al
  have hrun : (allAccounts ⟨.sqlite, "d"⟩).run ⟨[], 0⟩ (oldDisk al) = _ :=
    SearchRequest.run_database rfl (by decide) (by decide) hway hstands (compiled_allAccounts _)
  rw [foundInRows_oldDatabase al rfl] at hrun
  exact ⟨(unsupported_oldDisk al).2, hrun⟩

end Store

end RecordSearch

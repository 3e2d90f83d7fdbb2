import RecordSearch.Proofs.Store.Following
import RecordSearch.Proofs.Store.Ledger

/-!
# Loads step by step

Reading the input and summing up a store leave the disk as it is; a load is reading the input, opening
the store, inserting, saving the metadata and summing up, one after another.
-/

namespace RecordSearch

/-- The metadata after a write at that time. -/
def StoreMeta.touched (m : StoreMeta) (now : UInt64) : StoreMeta := { m with updatedAt := now }

/-! ## Operations that only read -/

open RecordSearch.Action (Preserves)

theorem DatabaseStore.preserves_read {P : Disk → Prop} (store : DatabaseStore) :
    Preserves P (fun _ => True) store.read := by
  refine .of_same fun disk => ?_
  cases hc : store.database? disk with
  | none => rw [read_of_none hc]
  | some db => rw [read_eq hc]

namespace Store

variable {P : Disk → Prop}

theorem preserves_loadMetadata (env : Surroundings) (store : Store) :
    Preserves P (fun _ => True) (store.loadMetadata env) := by
  cases store with
  | directory store => exact .pure trivial
  | database store => exact store.preserves_read.bind fun _ _ => .ofExcept _

theorem preserves_count (store : Store) (table : RecordTable) :
    Preserves P (fun _ => True) (store.count table) := by
  cases store with
  | directory store => exact .pure trivial
  | database store => exact store.preserves_read.bind fun _ _ => .pure trivial

theorem preserves_find (store : Store) (scope : Scope) (filter : Filter) :
    Preserves P (fun _ => True) (store.find scope filter) := by
  cases store with
  | directory store => exact .pure trivial
  | database store =>
      refine store.preserves_read.bind fun db _ => ?_
      cases db.select (Clause.ofSearch scope filter) with
      | error _ => exact .throw _
      | ok rows => exact .ofExcept _

theorem preserves_summary (store : Store) (m : StoreMeta) (loaded : Option Nat) :
    Preserves P (fun _ => True) (store.summary m loaded) := by
  have hcount : ∀ table, Preserves P (fun _ => True)
      (do pure (table.name, ← store.count table) : Action (String × Nat)) := fun table =>
    (store.preserves_count table).bind fun _ _ => .pure trivial
  exact (Preserves.mapM hcount tablesByName).bind fun _ _ => .pure trivial

variable {env : Surroundings} {config : StoreConfig} {input : String} {records : List Record}
  {store : Store} {m : StoreMeta} {disk disk₁ disk₂ : Disk}

/-! ## Loads -/

/-- The records that a path leads to. -/
def inputIn (env : Surroundings) (input : String) (disk : Disk) : Except StoreError (List Record) :=
  match disk.follow? env.workingDirectory input with
  | none => .error (.cannotOpen input)
  | some location =>
      match disk.content? location with
      | some (.text content) =>
          (recordsOfLines 1 (Text.lines content)).mapError fun line => .invalidLine line input
      | _ => .error .fileSystem

theorem readInput_eq (env : Surroundings) (input : String) (disk : Disk) :
    readInput env input disk = (inputIn env input disk, disk) := by
  rw [readInput, Action.get_bind, inputIn]
  cases disk.follow? env.workingDirectory input with
  | none => rfl
  | some location =>
      dsimp only
      rcases hc : disk.content? location with _ | e
      · refine Action.bind_of_error ?_
        rw [Action.readLines, Action.get_bind, hc]
        rfl
      · cases e with
        | text content =>
            have hlines : Action.readLines location disk = (.ok (Text.lines content), disk) := by
              rw [Action.readLines, Action.get_bind, hc]
              rfl
            rw [Action.bind_of_ok hlines]
            dsimp only
            cases recordsOfLines 1 (Text.lines content) <;> rfl
        | _ =>
            refine Action.bind_of_error ?_
            rw [Action.readLines, Action.get_bind, hc]
            rfl

/-- What is read as input depends only on the locations that the path visits. -/
theorem inputIn_congr {disk' : Disk}
    (h : ∀ l ∈ Location.visited env.workingDirectory input, disk'.content? l = disk.content? l) :
    inputIn env input disk' = inputIn env input disk := by
  rw [inputIn, inputIn, Disk.follow?_congr h]
  cases hf : disk.follow? env.workingDirectory input with
  | none => rfl
  | some l =>
      have hmem : l ∈ Location.visited env.workingDirectory input :=
        (Disk.eq_of_follow? hf).1 ▸ Location.ofPath_mem_visited ..
      dsimp only
      rw [h l hmem]

theorem inputIn_of_text {location : Location} {content : List Char}
    (hf : disk.follow? env.workingDirectory input = some location)
    (hc : disk.content? location = some (.text content)) :
    inputIn env input disk =
      (recordsOfLines 1 (Text.lines content)).mapError fun line => .invalidLine line input := by
  rw [inputIn, hf]
  dsimp only
  rw [hc]

/-- A file with a line for each record is read as these. -/
theorem inputIn_of_records {location : Location} (hf : disk.follow? env.workingDirectory input = some location)
    (hc : disk.content? location = some (.text (records.flatMap Record.line))) :
    inputIn env input disk = .ok records := by
  rw [inputIn_of_text hf hc, lines_flatMap_line, recordsOfLines_print]
  rfl

theorem summary_eq (store : Store) {count : RecordTable → Nat}
    (h : ∀ table, store.count table disk = (.ok (count table), disk))
    (m : StoreMeta) (loaded : Option Nat) :
    store.summary m loaded disk =
      (.ok ⟨store.backend, store.path, loaded, tablesByName.map fun table => (table.name, count table),
        some m.schemaVersion, some m.toolVersion, showEpoch? m.createdAt, showEpoch? m.updatedAt⟩, disk) := by
  have hcount : ∀ table, (do pure (table.name, ← store.count table) : Action (String × Nat)) disk =
      (.ok (table.name, count table), disk) := fun table => Action.bind_of_ok (h table)
  rw [summary, Action.bind_of_ok (Action.mapM_of_ok hcount tablesByName)]
  rfl

/-- A load step by step, on a medium that does not give out. -/
theorem load_eq_bind (env : Surroundings) (config : StoreConfig) (input : String) :
    load env config input = readInput env input >>= fun records =>
      openOrCreate env config >>= fun store => store.loadMetadata env >>= fun m =>
        store.insert records >>= fun inserted => inserted.saveMetadata (m.touched env.now) >>= fun saved =>
          saved.summary (m.touched env.now) (some records.length) := by
  simp only [load, loadOn, prepareOn, bind_assoc, pure_bind]
  rfl

/-- A load up to the point where the records are inserted. -/
theorem load_eq {inserted : Store} (hi : inputIn env input disk = .ok records)
    (ho : openOrCreate env config disk = (.ok store, disk₁))
    (hm : store.loadMetadata env disk₁ = (.ok m, disk₁))
    (hs : store.insert records disk₁ = (.ok inserted, disk₂)) :
    load env config input disk =
      (inserted.saveMetadata (m.touched env.now) >>= fun saved =>
        saved.summary (m.touched env.now) (some records.length)) disk₂ := by
  have hread : readInput env input disk = (.ok records, disk) := by rw [readInput_eq, hi]
  rw [load_eq_bind, Action.bind_of_ok hread, Action.bind_of_ok ho, Action.bind_of_ok hm,
    Action.bind_of_ok hs]

theorem load_of_refused {e : StoreError} (hi : inputIn env input disk = .error e) :
    load env config input disk = (.error e, disk) := by
  rw [load_eq_bind]
  exact Action.bind_of_error (by rw [readInput_eq, hi])

/-- What a load that succeeds has gone through. -/
theorem load_eq_ok {summary : StoreSummary} {disk' : Disk}
    (h : load env config input disk = (.ok summary, disk')) :
    ∃ records store opened m d inserted grown saved last,
      openOrCreate env config disk = (.ok store, opened) ∧ store.loadMetadata env opened = (.ok m, d) ∧
      store.insert records d = (.ok inserted, grown) ∧
      inserted.saveMetadata (m.touched env.now) grown = (.ok saved, last) := by
  rw [load_eq_bind] at h
  obtain ⟨records, _, hread, h⟩ := Action.bind_eq_ok h
  rw [readInput_eq] at hread
  cases congrArg Prod.snd hread
  obtain ⟨store, opened, ho, h⟩ := Action.bind_eq_ok h
  obtain ⟨m, d, hm, h⟩ := Action.bind_eq_ok h
  obtain ⟨inserted, grown, hinsert, h⟩ := Action.bind_eq_ok h
  obtain ⟨saved, last, hsave, _⟩ := Action.bind_eq_ok h
  exact ⟨records, store, opened, m, d, inserted, grown, saved, last, ho, hm, hinsert, hsave⟩

end Store

/-! ## Stores that stand with a ledger -/

namespace Ledger

def summary (config : StoreConfig) (m : StoreMeta) (loaded : Option Nat) (ledger : Ledger) : StoreSummary :=
  ⟨config.backend, config.path, loaded, Store.tablesByName.map fun table => (table.name, ledger.count table),
    some m.schemaVersion, some m.toolVersion, showEpoch? m.createdAt, showEpoch? m.updatedAt⟩

/-- The ledger after records were loaded. -/
def load (now : UInt64) (records : List Record) (ledger : Ledger) : Ledger :=
  (ledger.insert records).save ((ledger.loadMetadata now).touched now)

theorem Supported.load {ledger : Ledger} (h : ledger.Supported) (now : UInt64) (records : List Record) :
    (ledger.load now records).Supported := by
  rintro _ ⟨⟩
  exact h.loadMetadata now

end Ledger

namespace Backend

variable {config : StoreConfig} {input : String} {records : List Record}
  {ledger : Ledger} {m : StoreMeta} {disk disk₁ : Disk}

theorem Stands.summary (env : Surroundings) (h : config.backend.Stands (config.place env) ledger disk)
    (m : StoreMeta) (loaded : Option Nat) :
    (ledger.store config.backend (config.place env)).summary m loaded disk =
      (.ok (ledger.summary config m loaded), disk) := by
  rw [Store.summary_eq _ (fun table => h.count table)]
  obtain ⟨backend, path⟩ := config
  cases backend <;> rfl

theorem Stands.exists_load (env : Surroundings) (hi : Store.inputIn env input disk = .ok records)
    (ho : Store.openOrCreate env config disk =
      (.ok (ledger.store config.backend (config.place env)), disk₁))
    (h : config.backend.Stands (config.place env) ledger disk₁) (hs : ledger.Supported) :
    ∃ disk', Store.load env config input disk =
        (.ok ((ledger.load env.now records).summary config ((ledger.loadMetadata env.now).touched env.now)
          (some records.length)), disk') ∧
      config.backend.Stands (config.place env) (ledger.load env.now records) disk' ∧
      Disk.AgreeOff (config.backend.own (config.place env)) disk₁ disk' := by
  obtain ⟨disk₂, hinsert, h₂, hagree₂⟩ := h.exists_insert records
  obtain ⟨disk₃, hsave, h₃, hagree₃⟩ := h₂.exists_saveMetadata ((ledger.loadMetadata env.now).touched env.now)
  refine ⟨disk₃, ?_, h₃, hagree₂.trans hagree₃⟩
  rw [Store.load_eq hi ho (h.loadMetadata env hs) hinsert, Action.bind_of_ok hsave]
  exact Stands.summary env h₃ _ _

end Backend

/-! ### Descriptions -/

namespace StoreConfig

/-- The path of the store is not empty, and that of a database ends with a name. -/
def Named (config : StoreConfig) : Prop :=
  config.path ≠ "" ∧ (config.backend = .sqlite → Disk.EndsWithName config.path)

instance (config : StoreConfig) : Decidable config.Named := inferInstanceAs (Decidable (_ ∧ (_ → _)))

end StoreConfig

namespace Store

variable {env : Surroundings} {config : StoreConfig} {disk : Disk}

theorem openExisting_of_absent (h : disk.follow? env.workingDirectory config.path = none) :
    openExisting env config disk = (.error (.notFound config.path), disk) := by
  rw [openExisting, Action.get_bind, h]
  rfl

/-- Where the path leads the store is opened if something of the right kind stands there. -/
theorem openExisting_of_follow? {l : Location} (h : disk.follow? env.workingDirectory config.path = some l) :
    openExisting env config disk =
      match config.backend with
      | .file =>
          if disk.isDirectory l then openOrCreate env config disk
          else (.error (.notDirectory config.path), disk)
      | .sqlite =>
          if disk.isFile l then openOrCreate env config disk else (.error (.notFile config.path), disk) := by
  rw [openExisting, Action.get_bind, h]
  obtain ⟨backend, path⟩ := config
  cases backend with
  | file =>
      by_cases hd : disk.isDirectory l = true
      · exact (congrFun (if_neg (not_not_intro hd)) disk).trans (if_pos hd).symm
      · exact (congrFun (if_pos hd) disk).trans (if_neg hd).symm
  | sqlite =>
      by_cases hf : disk.isFile l = true
      · exact (congrFun (if_neg (not_not_intro hf)) disk).trans (if_pos hf).symm
      · exact (congrFun (if_pos hf) disk).trans (if_neg hf).symm

/-- Where the path leads to something of the wrong kind the store is refused, else it is opened as one that
may be made. -/
theorem openExisting_of_present (h : disk.follow? env.workingDirectory config.path ≠ none) :
    openExisting env config disk = (.error (.notDirectory config.path), disk) ∨
      openExisting env config disk = (.error (.notFile config.path), disk) ∨
        openExisting env config disk = openOrCreate env config disk := by
  obtain ⟨l, hl⟩ := Option.ne_none_iff_exists'.mp h
  rw [openExisting_of_follow? hl]
  cases config.backend with
  | file =>
      dsimp only
      split
      · exact .inr (.inr rfl)
      · exact .inl rfl
  | sqlite =>
      dsimp only
      split
      · exact .inr (.inr rfl)
      · exact .inr (.inl rfl)

/-- A store that must be there is refused, or opened as one that may be made. -/
theorem openExisting_eq (env : Surroundings) (config : StoreConfig) (disk : Disk) :
    (∃ e, openExisting env config disk = (.error e, disk)) ∨
      openExisting env config disk = openOrCreate env config disk := by
  by_cases h : disk.follow? env.workingDirectory config.path = none
  · exact .inl ⟨_, openExisting_of_absent h⟩
  · rcases openExisting_of_present h with he | he | he
    · exact .inl ⟨_, he⟩
    · exact .inl ⟨_, he⟩
    · exact .inr he

end Store

namespace Backend

variable {config : StoreConfig} {ledger : Ledger} {disk : Disk}

theorem openExisting_of_missing (env : Surroundings) (h : disk.content? (config.place env).location = none) :
    Store.openExisting env config disk = (.error (.notFound config.path), disk) := by
  have hfollow : disk.follow? env.workingDirectory config.path = none := by
    cases hf : disk.follow? env.workingDirectory config.path with
    | none => rfl
    | some l =>
        obtain ⟨rfl, he⟩ := Disk.eq_of_follow? hf
        change disk.content? (Location.ofPath env.workingDirectory config.path) = none at h
        rw [Disk.exists?, h] at he
        cases he
  exact Store.openExisting_of_absent hfollow

/-- A database that stands is opened where it is. -/
theorem openExisting_of_database (env : Surroundings) {path : String} {db : Database}
    (hn : StoreConfig.Named ⟨.sqlite, path⟩) (hp : path ∉ DatabaseStore.privateNames)
    (hd : Disk.Made (Place.ofPath env.workingDirectory path).way disk)
    (hc : disk.content? (Place.ofPath env.workingDirectory path).location = some (.database db)) :
    Store.openExisting env ⟨.sqlite, path⟩ disk =
      (.ok (.database ⟨Place.ofPath env.workingDirectory path, none⟩), disk) := by
  obtain ⟨hpath, hname⟩ := hn
  have hc' : disk.content? (Location.ofPath env.workingDirectory path) = some (.database db) := hc
  have hfollow := Disk.follow?_eq hpath hd (by rw [Disk.exists?, hc']; rfl) (.inr (hname rfl))
  have hkind : disk.isFile (Location.ofPath env.workingDirectory path) = true := by rw [Disk.isFile, hc']
  have hopen := Action.map_of_ok Store.database (DatabaseStore.openAt_of_database hp hd hc)
  rw [Store.openExisting, Action.get_bind, hfollow]
  refine Eq.trans (congrFun (if_neg ?_) disk) hopen
  exact not_not_intro hkind

theorem Stands.openExisting (env : Surroundings) (h : config.backend.Stands (config.place env) ledger disk)
    (hs : ledger.Supported) (hn : config.Named) :
    Store.openExisting env config disk =
      (.ok (ledger.store config.backend (config.place env)), disk) := by
  have hopen := h.openOrCreate env hs
  obtain ⟨backend, path⟩ := config
  obtain ⟨hpath, hname⟩ := hn
  let l := Location.ofPath env.workingDirectory path
  cases backend with
  | file =>
      have hd : disk.content? l = some .directory := DirectoryStore.Stands.location h
      have hway : Disk.Made (Place.ofPath env.workingDirectory path).way disk := fun k hk =>
        h.made k (List.mem_append_left _ hk)
      have hfollow := Disk.follow?_eq hpath hway (by rw [Disk.exists?, hd]; rfl) (.inl hd)
      have hkind : disk.isDirectory l = true := Disk.isDirectory_iff.mpr hd
      rw [Store.openExisting, Action.get_bind, hfollow]
      refine Eq.trans (congrFun (if_neg ?_) disk) hopen
      exact not_not_intro hkind
  | sqlite =>
      obtain ⟨db, hc, _⟩ := h.database
      exact openExisting_of_database env ⟨hpath, hname⟩ h.named.1 h.made hc

theorem Stands.info (env : Surroundings) (h : config.backend.Stands (config.place env) ledger disk)
    (hs : ledger.Supported) (hn : config.Named) :
    Store.info env config disk =
      (.ok (ledger.summary config (ledger.loadMetadata env.now) none), disk) := by
  rw [Store.info, Action.bind_of_ok (h.openExisting env hs hn), Action.bind_of_ok (h.loadMetadata env hs)]
  exact h.summary env _ _

end Backend

end RecordSearch

import RecordSearch.Proofs.Store.Reopening

/-!
# Opening twice, and what can be read

A store that is opened a second time is found as it was the first time. So what is read when a store is opened
is not changed by opening it, nor by an opening that came to the making of directories only.
-/

namespace RecordSearch

/-! ## Directories -/

namespace DirectoryStore

variable {place : Place} {disk disk' : Disk}

theorem openAt_of_blocked (h : disk.makeDirectories (directories place) = none) :
    openAt place disk = (.error .fileSystem, disk) :=
  Action.bind_of_error (Action.change_of_none h)

theorem openAt_intact (place : Place) (disk : Disk) : disk.Intact (openAt place disk).2 := by
  cases hd : disk.makeDirectories (directories place) with
  | none =>
      rw [openAt_of_blocked hd]
      exact .refl disk
  | some made =>
      rw [openAt_eq hd]
      exact Disk.intact_of_makeDirectories hd

/-- An opening finds the same once some first of its directories were made. -/
theorem openAt_of_take {steps : Nat} (h : disk.makeDirectories ((directories place).take steps) = some disk') :
    (openAt place disk').1 = (openAt place disk).1 := by
  have hsame := Disk.makeDirectories_of_take h
  cases hd : disk.makeDirectories (directories place) with
  | none => rw [openAt_of_blocked hd, openAt_of_blocked (hsame.trans hd)]
  | some made => rw [openAt_eq hd, openAt_eq (hsame.trans hd)]

theorem openAt_again (place : Place) (disk : Disk) :
    openAt place (openAt place disk).2 = openAt place disk := by
  cases hd : disk.makeDirectories (directories place) with
  | none => rw [openAt_of_blocked hd, openAt_of_blocked hd]
  | some made =>
      rw [openAt_eq hd]
      exact openAt_eq (Disk.makeDirectories_of_made (Disk.made_of_makeDirectories hd))

end DirectoryStore

/-! ## Databases -/

namespace DatabaseStore

variable {place : Place} {disk made : Disk}

theorem openAt_of_blocked (hp : place.path ∉ privateNames) (h : disk.makeDirectories place.way = none) :
    openAt place disk = (.error .fileSystem, disk) := by
  rw [openAt_of_file hp, openFile]
  exact Action.bind_of_error (Action.change_of_none h)

/-- What is opened once the directories are made: the database that stands there, or an empty one where
nothing stands or an empty file. -/
theorem openAt_cases (hp : place.path ∉ privateNames) (h : disk.makeDirectories place.way = some made) :
    (∃ db, made.content? place.location = some (.database db) ∧
        openAt place disk = (.ok ⟨place, none⟩, made)) ∨
      ((made.content? place.location = none ∨ made.content? place.location = some (.text [])) ∧
        openAt place disk =
          (.ok ⟨place, none⟩, Dictionary.insert made place.location (.database {}))) ∨
      openAt place disk = (.error .database, made) := by
  rw [openAt_of_file hp, openFile, Action.bind_of_ok (Action.change_of_some h), Action.get_bind]
  rcases made.content? place.location with _ | _ | ⟨_ | _⟩ | _ | db
  · exact .inr (.inl ⟨.inl rfl, rfl⟩)
  · exact .inr (.inr rfl)
  · exact .inr (.inl ⟨.inr rfl, rfl⟩)
  · exact .inr (.inr rfl)
  · exact .inr (.inr rfl)
  · exact .inl ⟨db, rfl, rfl⟩

theorem not_directory_of_empty {l : Location}
    (h : disk.content? l = none ∨ disk.content? l = some (.text [])) : disk.content? l ≠ some .directory := by
  rcases h with h | h <;> rw [h] <;> nofun

/-- Where nothing stands or an empty file, a database without rows is opened. -/
theorem openAt_of_empty (hp : place.path ∉ privateNames) (hd : Disk.Made place.way disk)
    (hc : disk.content? place.location = none ∨ disk.content? place.location = some (.text [])) :
    openAt place disk = (.ok ⟨place, none⟩, Dictionary.insert disk place.location (.database {})) := by
  have hmade := Disk.makeDirectories_of_made hd
  rw [openAt_of_file hp, openFile, Action.bind_of_ok (Action.change_of_some hmade), Action.get_bind]
  rcases hc with hc | hc <;> rw [hc] <;> rfl

/-- An opening does the same once some first of its directories were made, if all of them can be made. -/
theorem openAt_of_take {steps : Nat} {all : Disk} (hp : place.path ∉ privateNames)
    (h : disk.makeDirectories (place.way.take steps) = some made)
    (hd : disk.makeDirectories place.way = some all) : openAt place made = openAt place disk := by
  have hsame := Disk.makeDirectories_of_take h
  rw [openAt_of_file hp, openFile, Action.bind_of_ok (Action.change_of_some (hsame.trans hd)),
    Action.bind_of_ok (Action.change_of_some hd)]

theorem openAt_again (place : Place) (disk : Disk) :
    openAt place (openAt place disk).2 = openAt place disk := by
  by_cases hp : place.path ∈ privateNames
  · rw [openAt_of_private hp, openAt_of_private hp]
  · cases hd : disk.makeDirectories place.way with
    | none => rw [openAt_of_blocked hp hd, openAt_of_blocked hp hd]
    | some made =>
        have hmade := Disk.made_of_makeDirectories hd
        have hsame : openAt place made = openAt place disk := by
          have htake : disk.makeDirectories (place.way.take place.way.length) = some made := by
            rwa [List.take_length]
          exact openAt_of_take hp htake hd
        rcases openAt_cases hp hd with ⟨_, _, hopen⟩ | ⟨hc, hopen⟩ | hopen
        · rw [hopen, hsame, hopen]
        · -- The database that was made the first time is found the second time.
          rw [hopen]
          have hfile := not_directory_of_empty hc
          exact openAt_of_database hp (hmade.insert hfile _)
            (Disk.content?_insert (Disk.ne_nil_of_not_directory hfile))
        · rw [hopen, hsame, hopen]

/-- An open store is private, or its database stands in a file. -/
theorem exists_database_of_openAt {store : DatabaseStore} {opened : Disk}
    (h : openAt place disk = (.ok store, opened)) :
    (place.path ∈ privateNames ∧ store = ⟨place, some {}⟩ ∧ opened = disk) ∨
      place.path ∉ privateNames ∧ store = ⟨place, none⟩ ∧ Disk.Made place.way opened ∧
        ∃ db, opened.content? place.location = some (.database db) := by
  by_cases hp : place.path ∈ privateNames
  · rw [openAt_of_private hp] at h
    cases h
    exact .inl ⟨hp, rfl, rfl⟩
  · rw [openAt_of_file hp] at h
    obtain ⟨_, made, hd, _⟩ := Action.bind_eq_ok h
    have hd := Action.change_eq_ok hd
    have hmade := Disk.made_of_makeDirectories hd
    rw [← openAt_of_file hp] at h
    refine .inr ⟨hp, ?_⟩
    rcases openAt_cases hp hd with ⟨db, hc, ho⟩ | ⟨hc, ho⟩ | ho <;> cases ho.symm.trans h
    · exact ⟨rfl, hmade, db, hc⟩
    · have hfile := not_directory_of_empty hc
      exact ⟨rfl, hmade.insert hfile _, {}, Disk.content?_insert (Disk.ne_nil_of_not_directory hfile)⟩

end DatabaseStore

/-! ## Reading -/

/-- The database belongs to whoever opens it, and nobody else sees it. -/
def StoreConfig.Private (config : StoreConfig) : Prop :=
  config.backend = .sqlite ∧ config.path ∈ DatabaseStore.privateNames

instance (config : StoreConfig) : Decidable config.Private := inferInstanceAs (Decidable (_ ∧ _))

namespace Store

variable {env : Surroundings} {config : StoreConfig} {disk : Disk}

theorem openOrCreate_again (env : Surroundings) (config : StoreConfig) (disk : Disk) :
    openOrCreate env config (openOrCreate env config disk).2 = openOrCreate env config disk := by
  obtain ⟨backend, path⟩ := config
  let place := Place.ofPath env.workingDirectory path
  cases backend with
  | file => exact Action.map_again _ (DirectoryStore.openAt_again place disk)
  | sqlite => exact Action.map_again _ (DatabaseStore.openAt_again place disk)

/-- An opening that fails leaves all that stood on the disk. -/
theorem openOrCreate_refused_intact {e : StoreError} {disk' : Disk}
    (h : openOrCreate env config disk = (.error e, disk')) : disk.Intact disk' := by
  obtain ⟨backend, path⟩ := config
  let place := Place.ofPath env.workingDirectory path
  cases backend with
  | file =>
      have hopen : DirectoryStore.openAt place disk = (.error e, disk') := Action.map_eq_error h
      have hintact := DirectoryStore.openAt_intact place disk
      rwa [hopen] at hintact
  | sqlite =>
      have hopen : DatabaseStore.openAt place disk = (.error e, disk') := Action.map_eq_error h
      have hp : place.path ∉ DatabaseStore.privateNames := fun hp => by
        rw [DatabaseStore.openAt_of_private hp] at hopen
        cases hopen
      cases hd : disk.makeDirectories place.way with
      | none =>
          rw [DatabaseStore.openAt_of_blocked hp hd] at hopen
          cases hopen
          exact .refl disk
      | some made =>
          rcases DatabaseStore.openAt_cases hp hd with ⟨_, _, ho⟩ | ⟨_, ho⟩ | ho <;> cases ho.symm.trans hopen
          exact Disk.intact_of_makeDirectories hd

/-- All records of an open store. -/
def readAll : Store → Action (List Record)
  | .directory store => pure store.records
  | .database store => do Action.ofExcept (DatabaseStore.recordsOfRows (← store.read).records)

/-- The records that are read when the store is opened. -/
def readable (env : Surroundings) (config : StoreConfig) (disk : Disk) : Except StoreError (List Record) :=
  ((openOrCreate env config >>= readAll) disk).1

theorem readable_again (env : Surroundings) (config : StoreConfig) (disk : Disk) :
    readable env config (openOrCreate env config disk).2 = readable env config disk := by
  rw [readable, readable, Action.bind_congr (openOrCreate_again env config disk)]

theorem readable_file (env : Surroundings) (path : String) (disk : Disk) :
    readable env ⟨.file, path⟩ disk =
      (DirectoryStore.openAt (Place.ofPath env.workingDirectory path) disk).1.map DirectoryStore.records := by
  rw [readable]
  rcases hopen : DirectoryStore.openAt (Place.ofPath env.workingDirectory path) disk with ⟨_ | store, d⟩
  · exact congrArg Prod.fst (Action.bind_of_error (Action.map_of_error Store.directory hopen))
  · exact congrArg Prod.fst (Action.bind_of_ok (Action.map_of_ok Store.directory hopen))

theorem readAll_database {store : DatabaseStore} {db : Database} (h : store.database? disk = some db) :
    (Store.database store).readAll disk = (DatabaseStore.recordsOfRows db.records, disk) := by
  rw [readAll, Action.bind_of_ok (DatabaseStore.read_eq h)]
  cases DatabaseStore.recordsOfRows db.records <;> rfl

/-- A private database is always found without records. -/
theorem readable_private (env : Surroundings) (h : config.Private) (disk : Disk) :
    readable env config disk = .ok [] := by
  obtain ⟨backend, path⟩ := config
  obtain ⟨rfl, hpath⟩ := h
  let place := Place.ofPath env.workingDirectory path
  have hopen : DatabaseStore.openAt place disk = _ := DatabaseStore.openAt_of_private hpath disk
  exact congrArg Prod.fst (Action.bind_of_ok (Action.map_of_ok Store.database hopen))

theorem readable_database (env : Surroundings) {path : String} {db : Database}
    (hp : path ∉ DatabaseStore.privateNames)
    (hd : Disk.Made (Place.ofPath env.workingDirectory path).way disk)
    (hc : disk.content? (Place.ofPath env.workingDirectory path).location = some (.database db)) :
    readable env ⟨.sqlite, path⟩ disk = DatabaseStore.recordsOfRows db.records := by
  have hopen := Action.map_of_ok Store.database (DatabaseStore.openAt_of_database hp hd hc)
  have hread := readAll_database (DatabaseStore.database?_eq_some_iff.mpr hc)
  exact congrArg Prod.fst ((Action.bind_of_ok hopen).trans hread)

theorem readable_empty (env : Surroundings) {path : String} (hp : path ∉ DatabaseStore.privateNames)
    (hd : Disk.Made (Place.ofPath env.workingDirectory path).way disk)
    (hc : disk.content? (Place.ofPath env.workingDirectory path).location = none ∨
      disk.content? (Place.ofPath env.workingDirectory path).location = some (.text [])) :
    readable env ⟨.sqlite, path⟩ disk = .ok [] := by
  have hopen := Action.map_of_ok Store.database (DatabaseStore.openAt_of_empty hp hd hc)
  have hne := Disk.ne_nil_of_not_directory (DatabaseStore.not_directory_of_empty hc)
  refine (congrArg Prod.fst (Action.bind_of_ok hopen)).trans ?_
  rw [readAll_database (DatabaseStore.database?_eq_some_iff.mpr (Disk.content?_insert hne))]
  rfl

/-- What can be read of a database does not depend on how many of its directories were made before. -/
theorem readable_of_take {path : String} {steps : Nat} {made : Disk}
    (hp : path ∉ DatabaseStore.privateNames)
    (h : disk.makeDirectories ((Place.ofPath env.workingDirectory path).way.take steps) = some made) :
    readable env ⟨.sqlite, path⟩ made = readable env ⟨.sqlite, path⟩ disk := by
  cases hd : disk.makeDirectories (Place.ofPath env.workingDirectory path).way with
  | none =>
      have hblocked := DatabaseStore.openAt_of_blocked hp hd
      have hblocked' := DatabaseStore.openAt_of_blocked hp ((Disk.makeDirectories_of_take h).trans hd)
      have hrefused := Action.bind_of_error (f := readAll) (Action.map_of_error Store.database hblocked)
      have hrefused' := Action.bind_of_error (f := readAll) (Action.map_of_error Store.database hblocked')
      exact (congrArg Prod.fst hrefused').trans (congrArg Prod.fst hrefused).symm
  | some all =>
      have hopen := DatabaseStore.openAt_of_take hp h hd
      have hsame : openOrCreate env ⟨.sqlite, path⟩ made = openOrCreate env ⟨.sqlite, path⟩ disk := by
        change (Store.database <$> DatabaseStore.openAt _ : Action Store) made = _
        rw [map_eq_pure_bind, Action.bind_congr hopen, ← map_eq_pure_bind]
        rfl
      rw [readable, readable, Action.bind_congr hsame]

end Store

end RecordSearch

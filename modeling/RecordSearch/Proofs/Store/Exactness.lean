import RecordSearch.Proofs.Store.Written

/-!
# Loads that succeed

A load into a store that only the program wrote puts the records of the input behind those that were there,
and afterwards the store shows just that. An input with a line that holds no record is not loaded at all.
-/

namespace RecordSearch

variable {place : Place} {ledger : Ledger} {disk disk' opened : Disk}

/-! ## Opening -/

namespace DirectoryStore

/-- What the files hold is found when the store opens, unless a directory is in the way. -/
theorem Filed.stands_of_openAt {store : DirectoryStore} (h : Filed place ledger disk)
    (ho : openAt place disk = (.ok store, opened))
    (hn : ∀ l ∈ files place, opened.content? l ≠ some .directory) :
    Stands place ledger opened ∧ ledger.Supported ∧ store = ⟨place, ledger.metadata, ledger.records⟩ := by
  obtain ⟨hmade, _⟩ := openAt_eq_ok_iff.mp ho
  have hsame : ∀ l ∈ files place, opened.content? l = disk.content? l := fun l hl =>
    (Disk.intact_of_makeDirectories hmade l).resolve_right fun hd => hn l hl hd.2
  have hbefore : Backend.file.Filed place ledger disk := h
  have hfiled : DirectoryStore.Filed place ledger opened := hbefore.congr hsame
  have hstands : Stands place ledger opened :=
    ⟨Disk.made_of_makeDirectories hmade, hfiled.records, hfiled.metadata, hfiled.draft⟩
  have hagain := openAt_again place disk
  rw [ho] at hagain
  have hfound := hstands.openAt.symm.trans hagain
  refine ⟨hstands, ?_⟩
  by_cases hs : ledger.Supported
  · rw [accepted_of_supported hs] at hfound
    cases hfound
    exact ⟨hs, rfl⟩
  · obtain ⟨e, he⟩ := accepted_of_not_supported hs
    rw [he] at hfound
    cases hfound

/-- After a load no directory is in the way of a file. -/
theorem openAt_of_load {env : Surroundings} {path input : String} {summary : StoreSummary}
    (h : Store.load env ⟨.file, path⟩ input disk = (.ok summary, disk')) :
    ∃ store opened, openAt (Place.ofPath env.workingDirectory path) disk = (.ok store, opened) ∧
      ∀ l ∈ files (Place.ofPath env.workingDirectory path), opened.content? l ≠ some .directory := by
  obtain ⟨records, _, opened, m, _, _, grown, _, last, ho, hm, hinsert, hsave⟩ := Store.load_eq_ok h
  obtain ⟨store, hopen, rfl⟩ := Action.map_eq_ok ho
  cases hm
  obtain ⟨inserted, hgrown, rfl⟩ := Action.map_eq_ok hinsert
  obtain ⟨_, hlast, _⟩ := Action.map_eq_ok hsave
  obtain ⟨hmade, hfound⟩ := openAt_eq_ok_iff.mp hopen
  obtain ⟨hmetadata, hrecords, hplace⟩ := found_eq_ok_iff.mp hfound
  obtain ⟨text, htext, _⟩ := exists_text hrecords
  refine ⟨store, opened, hopen, ?_⟩
  simp only [files, List.forall_mem_cons]
  refine ⟨?_, (foundMetadata_eq_ok hmetadata).1, fun hdraft => ?_, List.forall_mem_nil _⟩
  · rw [htext]
    cases text <;> simp
  · -- The draft of the metadata could not have been written over a directory.
    have hparent : opened.content? store.place.location = some .directory := by
      rw [hplace]
      exact Disk.made_of_makeDirectories hmade _ (List.mem_append_right _ (List.mem_singleton_self _))
    rw [← hplace] at htext hdraft
    obtain ⟨_, hinserted, _, hagree, _⟩ := exists_insert hparent htext records
    cases hinserted.symm.trans hgrown
    have hblocked : grown.content? (draftPlace store.place).location = some .directory :=
      (hagree _ (by simpa using draftPlace_ne_recordsPlace store.place)).trans hdraft
    let inserted : DirectoryStore := { store with records := store.records ++ records }
    have hrefused : ∀ m, inserted.saveMetadata m grown = (.error .fileSystem, grown) :=
      saveMetadata_of_directory hblocked
    cases (hrefused _).symm.trans hlast

end DirectoryStore

namespace DatabaseStore

/-- What a database holds is found when it opens, and one that is missing is made. -/
theorem Filed.stands_of_openAt {store : DatabaseStore} (hn : NamesFile place.path)
    (h : Filed place ledger disk) (ho : openAt place disk = (.ok store, opened)) :
    Stands place ledger opened ∧ store = ⟨place, none⟩ := by
  obtain ⟨db, hc, hheld⟩ := h
  cases hd : disk.makeDirectories place.way with
  | none => cases (openAt_of_blocked hn.1 hd).symm.trans ho
  | some made =>
      have hmade := Disk.made_of_makeDirectories hd
      have hintact := Disk.intact_of_makeDirectories hd place.location
      rcases openAt_cases hn.1 hd with ⟨found, hfound, hopen⟩ | ⟨hfound, hopen⟩ | hopen <;>
        cases hopen.symm.trans ho
      · rw [hc, hfound] at hintact
        obtain hsame | ⟨_, hdir⟩ := hintact
        · cases db <;> cases hsame
          exact ⟨⟨hn, hmade, found, hfound, hheld⟩, rfl⟩
        · cases hdir
      · have hfile := not_directory_of_empty hfound
        have hne := Disk.ne_nil_of_not_directory hfile
        have hsame := hintact.resolve_right fun hdir => hfile hdir.2
        rw [hc] at hsame
        have hnone : db = none := by
          rcases hfound with hfound | hfound <;> rw [hfound] at hsame <;> cases db <;> cases hsame
          rfl
        subst hnone
        exact ⟨⟨hn, hmade.insert hfile _, {}, Disk.content?_insert hne, hheld⟩, rfl⟩

theorem not_directory_of_openAt {store : DatabaseStore} (hp : place.path ∉ privateNames)
    (ho : openAt place disk = (.ok store, opened)) : disk.content? place.location ≠ some .directory := by
  intro hdir
  cases hd : disk.makeDirectories place.way with
  | none => cases (openAt_of_blocked hp hd).symm.trans ho
  | some made =>
      have hmade := (Disk.intact_of_makeDirectories hd).of_content hdir
      rcases openAt_cases hp hd with ⟨_, hfound, _⟩ | ⟨hfound, _⟩ | hopen
      · cases hfound.symm.trans hmade
      · exact not_directory_of_empty hfound hmade
      · cases hopen.symm.trans ho

theorem Stands.supported {now : UInt64} {m : StoreMeta} (h : Stands place ledger disk)
    (hm : DatabaseStore.loadMetadata ⟨place, none⟩ now disk = (.ok m, disk')) : ledger.Supported := by
  obtain ⟨db, hc, _, hmetadata⟩ := h.database
  rw [loadMetadata_eq (database?_eq_some_iff.mpr hc), hmetadata] at hm
  intro m' hm'
  rw [hm', Option.map_some, Option.getD_some, metadataOfRows_rowsOfMetadata] at hm
  by_contra hv
  rw [StoreMeta.supported_eq_error hv] at hm
  cases hm

end DatabaseStore

namespace Backend

theorem Stands.readAll {backend : Backend} (h : backend.Stands place ledger disk) :
    (ledger.store backend place).readAll disk = (.ok ledger.records, disk) := by
  cases backend with
  | file => rfl
  | sqlite =>
      obtain ⟨db, hc, hrows, _⟩ := h.database
      have hread := Store.readAll_database (DatabaseStore.database?_eq_some_iff.mpr hc)
      exact hread.trans (congrArg (·, disk) hrows.recordsOfRows)

end Backend

namespace Store

variable {env : Surroundings} {config : StoreConfig} {input : String} {summary : StoreSummary}

/-- When a load succeeds, what the files hold was found when the store was opened. -/
theorem exists_stands_of_load (hn : config.backend.InFiles config.path)
    (h : config.backend.Accounted (config.place env) disk)
    (hload : load env config input disk = (.ok summary, disk')) :
    ∃ ledger opened, ledger.Supported ∧ config.backend.Stands (config.place env) ledger opened ∧
      openOrCreate env config disk = (.ok (ledger.store config.backend (config.place env)), opened) := by
  obtain ⟨backend, path⟩ := config
  cases backend with
  | file =>
      obtain ⟨store, opened, hopen, hclear⟩ := DirectoryStore.openAt_of_load hload
      rcases h with ⟨ledger, hfiled⟩ | ⟨l, hl, hc⟩
      · obtain ⟨hstands, hs, rfl⟩ := hfiled.stands_of_openAt hopen hclear
        exact ⟨ledger, opened, hs, hstands, Action.map_of_ok _ hopen⟩
      · have hintact := DirectoryStore.openAt_intact (Place.ofPath env.workingDirectory path) disk
        rw [hopen] at hintact
        exact absurd (hintact.of_content hc) (hclear l hl)
  | sqlite =>
      obtain ⟨_, _, opened, m, _, _, _, _, _, ho, hm, _⟩ := load_eq_ok hload
      obtain ⟨store, hopen, rfl⟩ := Action.map_eq_ok ho
      rcases h with ⟨ledger, hfiled⟩ | ⟨l, hl, hc⟩
      · obtain ⟨hstands, rfl⟩ := DatabaseStore.Filed.stands_of_openAt (hn rfl) hfiled hopen
        exact ⟨ledger, opened, hstands.supported hm, hstands, ho⟩
      · rw [List.mem_singleton.mp hl] at hc
        exact absurd hc (DatabaseStore.not_directory_of_openAt (hn rfl).1 hopen)

/-! ## What a store shows -/

/-- Opened at any time, the store has the records of the ledger, as many in each table, and its metadata. -/
structure Shows (workingDirectory : Location) (config : StoreConfig) (ledger : Ledger) (disk : Disk) :
    Prop where
  records : ∀ now, readable ⟨workingDirectory, now⟩ config disk = .ok ledger.records
  count : ∀ now table, ((openOrCreate ⟨workingDirectory, now⟩ config >>= Store.count table) disk).1 =
    .ok (ledger.count table)
  metadata : ∀ now, ((openOrCreate ⟨workingDirectory, now⟩ config >>=
    Store.loadMetadata ⟨workingDirectory, now⟩) disk).1 = .ok (ledger.loadMetadata now)

theorem shows_of_stands (hs : ledger.Supported)
    (h : config.backend.Stands (config.place env) ledger opened)
    (ho : openOrCreate env config disk = (.ok (ledger.store config.backend (config.place env)), opened)) :
    Shows env.workingDirectory config ledger disk where
  records now := by
    have ho : openOrCreate ⟨env.workingDirectory, now⟩ config disk = _ := ho
    rw [readable, Action.bind_of_ok ho, h.readAll]
  count now table := by
    have ho : openOrCreate ⟨env.workingDirectory, now⟩ config disk = _ := ho
    rw [Action.bind_of_ok ho, h.count]
  metadata now := by
    have ho : openOrCreate ⟨env.workingDirectory, now⟩ config disk = _ := ho
    rw [Action.bind_of_ok ho, h.loadMetadata _ hs]

theorem shows_of_open (hs : ledger.Supported) (h : config.backend.Stands (config.place env) ledger disk) :
    Shows env.workingDirectory config ledger disk :=
  shows_of_stands hs h (h.openOrCreate env hs)

/-! ## Descriptions -/

/-- A store is not found if its path is empty or leads to a file and does not end with a name. -/
theorem info_of_not_named (h : config.backend.Stands (config.place env) ledger disk) (hn : ¬ config.Named) :
    info env config disk = (.error (.notFound config.path), disk) := by
  have hfollow : disk.follow? env.workingDirectory config.path = none := by
    obtain ⟨backend, path⟩ := config
    by_cases hpath : path = ""
    · exact if_pos hpath
    · obtain ⟨hb, hend⟩ : backend = .sqlite ∧ ¬ Disk.EndsWithName path := by
        simpa [StoreConfig.Named, hpath] using hn
      subst hb
      obtain ⟨db, hc, _⟩ := h.database
      have hc : disk.content? (Location.ofPath env.workingDirectory path) = some (.database db) := hc
      exact Disk.follow?_of_not_endsWithName (by rw [hc]; nofun) hend
  have hopen : openExisting env config disk = (.error (.notFound config.path), disk) := by
    rw [openExisting, Action.get_bind, hfollow]
    rfl
  exact Action.bind_of_error hopen

/-! ## Private databases -/

theorem openOrCreate_of_private (env : Surroundings) (h : config.Private) (disk : Disk) :
    openOrCreate env config disk = (.ok (.database ⟨config.place env, some {}⟩), disk) := by
  obtain ⟨backend, path⟩ := config
  obtain ⟨rfl, hpath⟩ := h
  exact Action.map_of_ok Store.database (DatabaseStore.openAt_of_private hpath disk)

theorem shows_of_private (h : config.Private) (workingDirectory : Location) (disk : Disk) :
    Shows workingDirectory config {} disk where
  records now := readable_private ⟨workingDirectory, now⟩ h disk
  count now _ :=
    congrArg Prod.fst (Action.bind_of_ok (openOrCreate_of_private ⟨workingDirectory, now⟩ h disk))
  metadata now :=
    congrArg Prod.fst (Action.bind_of_ok (openOrCreate_of_private ⟨workingDirectory, now⟩ h disk))

/-- What is loaded into a private database is gone with it. -/
theorem load_of_private {records : List Record} (h : config.Private)
    (hi : inputIn env input disk = .ok records) :
    load env config input disk =
      (.ok ((({} : Ledger).load env.now records).summary config
        ((StoreMeta.fresh env.now).touched env.now) (some records.length)), disk) := by
  let place := config.place env
  let db : Database := Database.addRecords records {}
  let m := (StoreMeta.fresh env.now).touched env.now
  let saved : Database := { db with metadata := DatabaseStore.rowsOfMetadata m }
  have hheld : RecordRow.AllHold db.records records := @Database.addRecords_hold records [] {} trivial
  have hload : loadMetadata env (.database ⟨place, some {}⟩) disk = (.ok (.fresh env.now), disk) := rfl
  have hinsert : insert records (.database ⟨place, some {}⟩) disk =
      (.ok (.database ⟨place, some db⟩), disk) := rfl
  have hsave : saveMetadata m (.database ⟨place, some db⟩) disk =
      (.ok (.database ⟨place, some saved⟩), disk) := rfl
  have hsaved : DatabaseStore.database? ⟨place, some saved⟩ disk = some saved := rfl
  have hcount : ∀ table, count table (.database ⟨place, some saved⟩) disk =
      (.ok ((({} : Ledger).load env.now records).count table), disk) := fun table =>
    (DatabaseStore.count_eq hsaved table).trans (congrArg (Except.ok ·, disk) (hheld.countP table))
  rw [load_eq hi (openOrCreate_of_private env h disk) hload hinsert, Action.bind_of_ok hsave,
    summary_eq _ hcount]
  obtain ⟨backend, path⟩ := config
  obtain ⟨rfl, _⟩ := h
  rfl

/-! ## Loads -/

open Session (emptyBeside vacant_emptyBeside)

theorem follow_emptyBeside (content : List Char) : (emptyBeside content).follow? [] "in" = some ["in"] := by
  cbv

/-- A load into the empty directory leaves the input as it was. -/
theorem exists_load_emptyBeside (now : UInt64) {content : List Char} {records : List Record}
    (h : recordsOfLines 1 (Text.lines content) = .ok records) :
    ∃ first, (load ⟨[], now⟩ ⟨.file, "f"⟩ "in" (emptyBeside content)).2 = first ∧
      Backend.file.Stands (Place.ofPath [] "f") (({} : Ledger).load now records) first ∧
      first.follow? [] "in" = some ["in"] ∧ first.content? ["in"] = some (.text content) := by
  let config : StoreConfig := ⟨.file, "f"⟩
  let start := emptyBeside content
  have hvacant : config.backend.Vacant (config.place ⟨[], now⟩) start := vacant_emptyBeside content
  have hinput : inputIn ⟨[], now⟩ "in" start = .ok records := by
    rw [inputIn_of_text (follow_emptyBeside content) rfl, h]
    rfl
  obtain ⟨made, hopen, hmade, hagree⟩ := hvacant.exists_openOrCreate ⟨[], now⟩
  obtain ⟨first, hfirst, hstands, hagree'⟩ :=
    Backend.Stands.exists_load ⟨[], now⟩ hinput hopen hmade Ledger.supported_empty
  -- The input is not one of the files of the store.
  have hsame : ∀ k ∈ Location.visited [] "in", first.content? k = start.content? k := by
    have hvisited : Location.visited [] "in" = [[], ["in"]] := by decide
    have hapart : ["in"] ∉ Backend.file.own (Place.ofPath [] "f") := by decide
    simp only [hvisited, List.forall_mem_cons]
    exact ⟨rfl, (hagree.trans hagree') _ hapart, List.forall_mem_nil _⟩
  exact ⟨first, congrArg Prod.snd hfirst, hstands,
    (Disk.follow?_congr hsame).trans (follow_emptyBeside content), hsame _ (by decide)⟩

theorem private_memory : StoreConfig.Private ⟨.sqlite, ":memory:"⟩ := by decide

theorem follow_private (content : List Char) : (emptyBeside content).follow? [] ":memory:" = none := by
  cases hf : (emptyBeside content).follow? [] ":memory:" with
  | none => rfl
  | some l =>
      have hlocation : Location.ofPath [] ":memory:" = [":memory:"] := by decide
      obtain ⟨rfl, hexists⟩ := Disk.eq_of_follow? hf
      rw [hlocation] at hexists
      cases hexists

theorem written_private (now : UInt64) (content : List Char) :
    Written .sqlite (StoreConfig.place ⟨[], now⟩ ⟨.sqlite, ":memory:"⟩) (emptyBeside content) := by
  have hplace : Place.ofPath [] ":memory:" = ⟨":memory:", [":memory:"], [[]]⟩ := by decide
  rw [StoreConfig.place, hplace]
  exact .absent (List.forall_mem_singleton.mpr rfl)

theorem load_private_emptyBeside (now : UInt64) {content : List Char} {records : List Record}
    (h : recordsOfLines 1 (Text.lines content) = .ok records) :
    load ⟨[], now⟩ ⟨.sqlite, ":memory:"⟩ "in" (emptyBeside content) =
      (.ok ((({} : Ledger).load now records).summary ⟨.sqlite, ":memory:"⟩ ((StoreMeta.fresh now).touched now)
        (some records.length)), emptyBeside content) := by
  refine load_of_private private_memory ?_
  rw [inputIn_of_text (follow_emptyBeside content) rfl, h]
  rfl

/-- A text of which some line is not blank and holds no record is refused at the first of these lines, with
the disk as it was. Otherwise, if a load into a store that only the program wrote succeeds, the summary counts
the records that the store showed before and those of the lines that are not blank, and its metadata is the old,
or fresh if there was none, with the time of the load. In a store that keeps its records in files these stand
behind those that it showed before, and every description that follows says so, provided that the path leads
to the store. A private database shows nothing before nor afterwards. -/
theorem load_exact {location : Location} {content : List Char}
    (hw : Written config.backend (config.place env) disk)
    (hf : disk.follow? env.workingDirectory input = some location)
    (hc : disk.content? location = some (.text content)) :
    (∀ k, (Text.lines content).findIdx? undecodable = some k →
      load env config input disk = (.error (.invalidLine (k + 1) input), disk)) ∧
    (config.backend.InFiles config.path ∨ config.Private →
      ∀ summary disk', load env config input disk = (.ok summary, disk') →
        ∃ records ledger,
          ((Text.lines content).filter (!Text.allBlank ·)).map Record.parse = records.map .ok ∧
          let m := ledger.loadMetadata env.now
          Shows env.workingDirectory config ledger disk ∧
          summary = ⟨config.backend, config.path, some records.length,
            tablesByName.map fun table =>
              (table.name, ledger.count table + records.countP (·.table == table)),
            some schemaVersion, some m.toolVersion, showEpoch? m.createdAt, showEpoch? env.now⟩ ∧
          (config.backend.InFiles config.path →
            Shows env.workingDirectory config
              ⟨ledger.records ++ records, some { m with updatedAt := env.now }⟩ disk' ∧
            (config.Named → ∀ later,
              info ⟨env.workingDirectory, later⟩ config disk' =
                (.ok { summary with loaded := none }, disk')) ∧
            (¬ config.Named → ∀ later,
              info ⟨env.workingDirectory, later⟩ config disk' =
                (.error (.notFound config.path), disk'))) ∧
          (config.Private → ledger = {} ∧ disk' = disk ∧
            (disk.follow? env.workingDirectory config.path = none → ∀ later,
              info ⟨env.workingDirectory, later⟩ config disk' =
                (.error (.notFound config.path), disk')))) := by
  have hinput := inputIn_of_text hf hc
  refine ⟨fun k hk => ?_, fun hkind summary disk' hload => ?_⟩
  · rw [recordsOfLines_of_findIdx? 1 hk] at hinput
    rw [load_of_refused hinput, Nat.add_comm]
  cases hlines : recordsOfLines 1 (Text.lines content) with
  | error line =>
      rw [hlines] at hinput
      cases (load_of_refused hinput).symm.trans hload
  | ok records =>
      rw [hlines] at hinput
      have hparsed := parse_of_recordsOfLines hlines
      have hcount (ledger : Ledger) (table : RecordTable) :
          (ledger.load env.now records).count table =
            ledger.count table + records.countP (·.table == table) := List.countP_append
      rcases hkind with hkind | hkind
      · obtain ⟨ledger, opened, hs, hopened, ho⟩ := exists_stands_of_load hkind hw.accounted hload
        obtain ⟨last, hloaded, hlast, _⟩ := Backend.Stands.exists_load env hinput ho hopened hs
        cases hloaded.symm.trans hload
        have hs' : (ledger.load env.now records).Supported := hs.load env.now records
        refine ⟨records, ledger, hparsed, shows_of_stands hs hopened ho, ?_, fun _ =>
          ⟨shows_of_open hs' hlast, fun hn later => ?_, fun hn later => info_of_not_named hlast hn⟩,
          fun hprivate => absurd hprivate.2 (hkind hprivate.1).1⟩
        · have hversion : ((ledger.loadMetadata env.now).touched env.now).schemaVersion = schemaVersion :=
            hs.loadMetadata env.now
          simp only [Ledger.summary, hcount, hversion]
          rfl
        · exact Backend.Stands.info ⟨env.workingDirectory, later⟩ hlast hs' hn
      · cases (load_of_private hkind hinput).symm.trans hload
        refine ⟨records, {}, hparsed, shows_of_private hkind _ disk, ?_,
          fun hfiles => absurd hkind.2 (hfiles hkind.1).1, fun _ => ⟨rfl, rfl, fun hn later => ?_⟩⟩
        · simp only [Ledger.summary, hcount]
          rfl
        · exact Action.bind_of_error (openExisting_of_absent hn)

/-- A text with a blank line and one that is no record is refused at the second line. One with a blank line
and a record is loaded twice, and the second load finds the record of the first. Loaded into a private
database, it is gone. -/
theorem load_exact_twice :
    let bo : Record := .account ⟨"bo", "", true⟩
    let config : StoreConfig := ⟨.file, "f"⟩
    let broken := emptyBeside ['\n', 'x']
    let counts := [("account", 2), ("application", 0), ("user", 0)]
    let start := emptyBeside ('\n' :: bo.line)
    load ⟨[], 7⟩ config "in" broken = (.error (.invalidLine 2 "in"), broken) ∧
      (∃ summary, load ⟨[], 7⟩ ⟨.sqlite, ":memory:"⟩ "in" start = (.ok summary, start) ∧
        summary.loaded = some 1 ∧
        info ⟨[], 9⟩ ⟨.sqlite, ":memory:"⟩ start = (.error (.notFound ":memory:"), start)) ∧
      ∃ first second, (load ⟨[], 3⟩ config "in" start).2 = first ∧
        load ⟨[], 7⟩ config "in" first =
          (.ok ⟨.file, "f", some 1, counts, some "1", some "0.0.0", showEpoch? 3, showEpoch? 7⟩, second) ∧
        readable ⟨[], 7⟩ config second = .ok [bo, bo] ∧
        info ⟨[], 9⟩ config second =
          (.ok ⟨.file, "f", none, counts, some "1", some "0.0.0", showEpoch? 3, showEpoch? 7⟩, second) := by
  intro bo config broken counts start
  have hnothing : ∀ now content, Written config.backend (config.place ⟨[], now⟩) (emptyBeside content) :=
    fun _ content => .absent (vacant_emptyBeside content).vacant
  have hbad : (Text.lines ['\n', 'x']).findIdx? undecodable = some 1 := by cbv
  have hlines : recordsOfLines 1 (Text.lines ('\n' :: bo.line)) = .ok [bo] := by cbv
  refine ⟨(load_exact (hnothing 7 _) (follow_emptyBeside _) rfl).1 1 hbad, ?_, ?_⟩
  · obtain ⟨_, _, _, _, _, _, hgone⟩ := (load_exact (written_private 7 _) (follow_emptyBeside _) rfl).2
      (.inr private_memory) _ _ (load_private_emptyBeside 7 hlines)
    exact ⟨_, load_private_emptyBeside 7 hlines, rfl, (hgone private_memory).2.2 (follow_private _) 9⟩
  obtain ⟨first, hfirst, hstands, hfollow, htext⟩ := exists_load_emptyBeside 3 hlines
  have hwritten : Written config.backend (config.place ⟨[], 7⟩) first := by
    have hloaded := (hnothing 3 ('\n' :: bo.line)).load "in"
    rwa [hfirst] at hloaded
  have hinput : inputIn ⟨[], 7⟩ "in" first = .ok [bo] := by
    rw [inputIn_of_text hfollow htext, hlines]
    rfl
  have hsupported := Ledger.supported_empty.load 3 [bo]
  have hstands : config.backend.Stands (config.place ⟨[], 7⟩) (({} : Ledger).load 3 [bo]) first := hstands
  have hopen := hstands.openOrCreate ⟨[], 7⟩ hsupported
  obtain ⟨second, hsecond, _⟩ := Backend.Stands.exists_load ⟨[], 7⟩ hinput hopen hstands hsupported
  have hsays : ((({} : Ledger).load 3 [bo]).load 7 [bo]).summary config
      (((({} : Ledger).load 3 [bo]).loadMetadata 7).touched 7) (some 1) =
        ⟨.file, "f", some 1, counts, some "1", some "0.0.0", showEpoch? 3, showEpoch? 7⟩ := rfl
  have hsecond : load ⟨[], 7⟩ config "in" first = _ := hsecond.trans (congrArg (Except.ok ·, second) hsays)
  obtain ⟨records, ledger, hrecords, hbefore, _, hkept, _⟩ :=
    (load_exact hwritten hfollow htext).2 (.inl (by decide)) _ _ hsecond
  have hread : records = [bo] := by
    have hparsed : ((Text.lines ('\n' :: bo.line)).filter (!Text.allBlank ·)).map Record.parse = [.ok bo] :=
      parse_of_recordsOfLines hlines
    exact List.map_injective_iff.mpr (fun _ _ => Except.ok.inj) (hrecords.symm.trans hparsed)
  have hfound : ledger.records = [bo] :=
    Except.ok.inj ((hbefore.records 7).symm.trans ((shows_of_open hsupported hstands).records 7))
  obtain ⟨hafter, hinfo, _⟩ := hkept (by decide)
  refine ⟨first, second, hfirst, hsecond, ?_, hinfo (by decide) 9⟩
  rw [hafter.records 7, hread, hfound]
  rfl

/-- A database that was made by a path with a slash at its end is not found by that path. -/
theorem info_not_found_after_load :
    let al : Record := .account ⟨"a", "e@x", true⟩
    let config : StoreConfig := ⟨.sqlite, "d/"⟩
    let start := emptyBeside al.line
    Written config.backend (config.place ⟨[], 0⟩) start ∧
      ∃ summary disk', load ⟨[], 0⟩ config "in" start = (.ok summary, disk') ∧ summary.loaded = some 1 ∧
        info ⟨[], 0⟩ config disk' = (.error (.notFound "d/"), disk') := by
  intro al config start
  have hplace : config.place ⟨[], 0⟩ = ⟨"d/", ["d"], [[]]⟩ := by decide
  have hvacant : config.backend.Vacant (config.place ⟨[], 0⟩) start := by
    rw [hplace]
    refine ⟨by decide, ?_, ?_, by decide⟩
    · exact List.forall_mem_singleton.mpr (.inr rfl)
    · exact List.forall_mem_singleton.mpr rfl
  have hline : al.line = [al].flatMap Record.line := (List.flatMap_singleton ..).symm
  have hinput : inputIn ⟨[], 0⟩ "in" start = .ok [al] :=
    inputIn_of_records (follow_emptyBeside al.line) (congrArg (some <| Entry.text ·) hline)
  have hnamed : ¬ config.Named := by decide
  obtain ⟨made, hopen, hmade, _⟩ := hvacant.exists_openOrCreate ⟨[], 0⟩
  obtain ⟨disk', hload, hstands, _⟩ :=
    Backend.Stands.exists_load ⟨[], 0⟩ hinput hopen hmade Ledger.supported_empty
  exact ⟨.absent hvacant.vacant, _, disk', hload, rfl, info_of_not_named hstands hnamed⟩

end Store

end RecordSearch

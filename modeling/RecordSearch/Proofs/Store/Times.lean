import RecordSearch.Proofs.Store.Session
import RecordSearch.Proofs.Store.Unsupported
import RecordSearch.Proofs.Timestamp.Epoch

/-!
# The times that descriptions show

A description shows the times of the metadata that the store keeps, whatever their size: as they are up to
the year 9999, and not at all beyond it. Only the last times of all are shown as points in time before 1970.
-/

namespace RecordSearch

namespace Backend

/-- The metadata is what is read where the store keeps it. -/
def Keeps (place : Place) (m : StoreMeta) (disk : Disk) : Backend → Prop
  | .file => ∃ content,
      disk.content? (DirectoryStore.metadataPlace place).location = some (.text content) ∧
        StoreMeta.parse? content = some m
  | .sqlite => DatabaseStore.NamesFile place.path ∧
      ∃ db, disk.content? place.location = some (.database db) ∧ db.metadata ≠ [] ∧
        ∀ now, DatabaseStore.metadataOfRows now db.metadata = .ok m

end Backend

namespace DirectoryStore

variable {place : Place} {m : StoreMeta} {store : DirectoryStore} {disk opened : Disk}

theorem metadata_of_openAt (h : Backend.file.Keeps place m disk)
    (ho : openAt place disk = (.ok store, opened)) : store.metadata = some m := by
  obtain ⟨content, hc, hm⟩ := h
  obtain ⟨hmade, hfound⟩ := openAt_eq_ok_iff.mp ho
  have hcontent := (Disk.intact_of_makeDirectories hmade).of_content hc
  have hmetadata := (found_eq_ok_iff.mp hfound).1
  rw [hcontent, foundMetadata, hm] at hmetadata
  obtain ⟨taken, htaken, hstore⟩ := map_eq_ok_iff.mp hmetadata
  rw [StoreMeta.supported] at htaken
  split at htaken
  · cases htaken
    exact hstore.symm
  · cases htaken

end DirectoryStore

namespace Store

variable {env : Surroundings} {config : StoreConfig} {m : StoreMeta} {store : Store}
  {disk opened disk' : Disk} {summary : StoreSummary} {loaded : Option Nat}

/-- An open store loads the metadata that is kept, whatever the time is. -/
theorem loadMetadata_of_keeps (h : config.backend.Keeps (config.place env) m disk)
    (ho : openOrCreate env config disk = (.ok store, opened)) (now : UInt64) :
    store.loadMetadata { env with now := now } opened = (.ok m, opened) := by
  obtain ⟨backend, path⟩ := config
  cases backend with
  | file =>
      obtain ⟨directory, hopen, rfl⟩ := Action.map_eq_ok ho
      have hmetadata := DirectoryStore.metadata_of_openAt h hopen
      have hloaded : directory.loadMetadata now = m := by
        rw [DirectoryStore.loadMetadata, hmetadata, Option.getD_some]
      exact congrArg (Except.ok ·, opened) hloaded
  | sqlite =>
      obtain ⟨database, hopen, rfl⟩ := Action.map_eq_ok ho
      obtain ⟨hnamed, db, hc, _, hrows⟩ := h
      obtain ⟨rfl, _, hmade⟩ := DatabaseStore.stands_of_openAt hnamed.1 hc hopen
      have hread := DatabaseStore.database?_eq_some_iff.mpr hmade
      exact (DatabaseStore.loadMetadata_eq hread now).trans (congrArg (·, opened) (hrows now))

/-- A store that keeps metadata is described the same at any time. -/
theorem info_at_any_time (h : config.backend.Keeps (config.place env) m disk) (now : UInt64) :
    info { env with now := now } config disk = info env config disk := by
  have hopen : openExisting { env with now := now } config disk = openExisting env config disk := rfl
  rcases openExisting_eq env config disk with ⟨e, hexisting⟩ | hexisting
  · rw [info, info, Action.bind_of_error (hopen.trans hexisting), Action.bind_of_error hexisting]
  · rcases ho : openOrCreate env config disk with ⟨e | store, opened⟩
    · rw [ho] at hexisting
      rw [info, info, Action.bind_of_error (hopen.trans hexisting), Action.bind_of_error hexisting]
    · rw [ho] at hexisting
      rw [info, info, Action.bind_of_ok (hopen.trans hexisting), Action.bind_of_ok hexisting,
        Action.bind_of_ok (loadMetadata_of_keeps h ho now),
        Action.bind_of_ok (loadMetadata_of_keeps h ho env.now)]

theorem times_of_summary (h : store.summary m loaded disk = (.ok summary, disk')) :
    summary.createdAt = showEpoch? m.createdAt ∧ summary.updatedAt = showEpoch? m.updatedAt := by
  obtain ⟨_, _, _, h⟩ := Action.bind_eq_ok h
  cases h
  exact ⟨rfl, rfl⟩

end Store

open Timestamp (Shows)

/-- How a description shows the two times of metadata. Neither is shown as an earlier point in time than a
smaller one, unless one of them is among the last of all. -/
structure StoreSummary.ShowsTimes (m : StoreMeta) (summary : StoreSummary) : Prop where
  createdAt : Shows m.createdAt summary.createdAt
  updatedAt : Shows m.updatedAt summary.updatedAt
  order : ∀ t u : Timestamp, summary.createdAt = some t.rfc3339 → summary.updatedAt = some u.rfc3339 →
    m.createdAt.toNat + 377705116800 < 0x10000000000000000 →
    m.updatedAt.toNat + 377705116800 < 0x10000000000000000 →
    (t.instant < u.instant ↔ m.createdAt < m.updatedAt) ∧
      (u.instant < t.instant ↔ m.updatedAt < m.createdAt)

namespace Store

variable {env : Surroundings} {config : StoreConfig} {m : StoreMeta} {disk disk' : Disk}
  {summary : StoreSummary}

theorem showsTimes_of_info (h : config.backend.Keeps (config.place env) m disk)
    (hi : info env config disk = (.ok summary, disk')) : summary.ShowsTimes m := by
  rcases openExisting_eq env config disk with ⟨e, hexisting⟩ | hexisting
  · cases (Action.bind_of_error hexisting).symm.trans hi
  · obtain ⟨store, opened, ho, hi⟩ := Action.bind_eq_ok hi
    rw [Action.bind_of_ok (loadMetadata_of_keeps h (hexisting.symm.trans ho) env.now)] at hi
    obtain ⟨hcreated, hupdated⟩ := times_of_summary hi
    have hc : Shows m.createdAt summary.createdAt := hcreated ▸ Timestamp.shows_showEpoch? _
    have hu : Shows m.updatedAt summary.updatedAt := hupdated ▸ Timestamp.shows_showEpoch? _
    refine ⟨hc, hu, fun t u ht hu' hbound hbound' => ?_⟩
    rw [ht] at hc
    rw [hu'] at hu
    exact ⟨hc.instant_lt_iff hu hbound hbound', hu.instant_lt_iff hc hbound' hbound⟩

end Store

namespace Backend

variable {config : StoreConfig} {ledger : Ledger} {disk : Disk} {m : StoreMeta}

/-- A store keeps what was saved. -/
theorem Stands.keeps {place : Place} {backend : Backend} (h : backend.Stands place ledger disk)
    (hm : ledger.metadata = some m) (hv : m.schemaVersion = schemaVersion) : backend.Keeps place m disk := by
  cases backend with
  | file =>
      have hc := DirectoryStore.Stands.metadata h
      rw [hm] at hc
      exact ⟨_, hc, StoreMeta.parse?_print m⟩
  | sqlite =>
      obtain ⟨db, hc, _, hrows⟩ := DatabaseStore.Stands.database h
      rw [hm, Option.map_some, Option.getD_some] at hrows
      refine ⟨DatabaseStore.Stands.named h, db, hc, hrows ▸ List.cons_ne_nil _ _, fun now => ?_⟩
      rw [hrows, DatabaseStore.metadataOfRows_rowsOfMetadata, StoreMeta.supported_eq_ok hv]

end Backend

namespace Store

variable {env : Surroundings} {config : StoreConfig} {m : StoreMeta}

/-- A description of a store that keeps metadata shows its times, and a store in which metadata was saved is
described so. -/
theorem info_shows_times :
    (∀ disk disk' summary, config.backend.Keeps (config.place env) m disk →
      info env config disk = (.ok summary, disk') → summary.ShowsTimes m) ∧
    ∀ ledger disk, config.backend.Stands (config.place env) ledger disk → config.Named →
      m.schemaVersion = schemaVersion →
      ∃ saved disk' summary,
        (ledger.store config.backend (config.place env)).saveMetadata m disk = (.ok saved, disk') ∧
          info env config disk' = (.ok summary, disk') ∧ summary.ShowsTimes m := by
  refine ⟨fun disk disk' summary => showsTimes_of_info, fun ledger disk h hn hv => ?_⟩
  obtain ⟨disk', hsave, hstands, _⟩ := h.exists_saveMetadata m
  have hsupported : (ledger.save m).Supported := by
    rintro _ ⟨⟩
    exact hv
  have hinfo := hstands.info env hsupported hn
  exact ⟨_, disk', _, hsave, hinfo, showsTimes_of_info (hstands.keeps rfl hv) hinfo⟩

/-- A directory `f` and a database `d` with the metadata and without records. -/
def describedDisk (m : StoreMeta) : Disk :=
  ⟨[(["f"], .directory), (["f", "meta.json"], .text m.print),
    (["d"], .database ⟨DatabaseStore.rowsOfMetadata m, []⟩)]⟩

theorem stands_describedDisk (m : StoreMeta) :
    Backend.file.Stands (Place.ofPath [] "f") ⟨[], some m⟩ (describedDisk m) ∧
      Backend.sqlite.Stands (Place.ofPath [] "d") ⟨[], some m⟩ (describedDisk m) := by
  have hfiles : Place.ofPath [] "f" = ⟨"f", ["f"], [[]]⟩ := by decide
  have hdatabase : Place.ofPath [] "d" = ⟨"d", ["d"], [[]]⟩ := by decide
  rw [hfiles, hdatabase]
  refine ⟨⟨fun l hl => ?_, ⟨none, rfl, rfl⟩, rfl, rfl⟩, by decide, fun l hl => ?_, _, rfl, trivial, rfl⟩
  · simp only [DirectoryStore.directories, List.mem_append, List.mem_singleton] at hl
    rcases hl with rfl | rfl <;> rfl
  · rw [List.mem_singleton.mp hl]
    rfl

theorem info_describedDisk (env : Surroundings) (henv : env.workingDirectory = []) {m : StoreMeta}
    (hv : m.schemaVersion = schemaVersion) :
    (∃ summary, info env ⟨.file, "f"⟩ (describedDisk m) = (.ok summary, describedDisk m)) ∧
      ∃ summary, info env ⟨.sqlite, "d"⟩ (describedDisk m) = (.ok summary, describedDisk m) := by
  obtain ⟨_, now⟩ := env
  cases henv
  obtain ⟨hfiles, hdatabase⟩ := stands_describedDisk m
  have hsupported : Ledger.Supported ⟨[], some m⟩ := by
    rintro _ ⟨⟩
    exact hv
  exact ⟨⟨_, Backend.Stands.info ⟨[], now⟩ hfiles hsupported (by decide)⟩,
    _, Backend.Stands.info ⟨[], now⟩ hdatabase hsupported (by decide)⟩

/-- The last second of the year 9999 is shown and the next one is not; when other times are saved, they are
shown. -/
theorem info_shows_times_describedDisk :
    let env : Surroundings := ⟨[], 7⟩
    let m : StoreMeta := ⟨schemaVersion, "x", 253402300799, 253402300800⟩
    let other : StoreMeta := ⟨schemaVersion, "x", 0, 1700000000⟩
    (∃ summary, info env ⟨.file, "f"⟩ (describedDisk m) = (.ok summary, describedDisk m) ∧
      summary.createdAt = some "9999-12-31T23:59:59Z" ∧ summary.updatedAt = none) ∧
    ∃ saved disk' summary,
      (Ledger.store .sqlite (Place.ofPath [] "d") ⟨[], some m⟩).saveMetadata other (describedDisk m) =
        (.ok saved, disk') ∧ info env ⟨.sqlite, "d"⟩ disk' = (.ok summary, disk') ∧
      summary.createdAt = some "1970-01-01T00:00:00Z" ∧ summary.updatedAt = some "2023-11-14T22:13:20Z" := by
  intro env m other
  obtain ⟨hfiles, hdatabase⟩ := stands_describedDisk m
  obtain ⟨⟨summary, hinfo⟩, _⟩ := info_describedDisk env rfl (m := m) rfl
  have hshown := (@info_shows_times env ⟨.file, "f"⟩ m).1 _ _ summary (hfiles.keeps rfl rfl) hinfo
  obtain ⟨saved, disk', later, hsave, hlater, hshown'⟩ :=
    (@info_shows_times env ⟨.sqlite, "d"⟩ other).2 _ _ hdatabase (by decide) rfl
  refine ⟨⟨summary, hinfo, ?_, ?_⟩, saved, disk', later, hsave, hlater, ?_, ?_⟩
  · exact hshown.createdAt.eq_showEpoch?.trans (by decide)
  · exact hshown.updatedAt.eq_showEpoch?.trans (by decide)
  · exact hshown'.createdAt.eq_showEpoch?.trans (by decide)
  · exact hshown'.updatedAt.eq_showEpoch?.trans (by decide)

/-- The last time of all is shown as the last second of 1969, before the time nought. -/
theorem info_shows_last_time_before_first :
    let env : Surroundings := ⟨[], 7⟩
    let m : StoreMeta := ⟨schemaVersion, "x", 0xffffffffffffffff, 0⟩
    let last : Timestamp :=
      { date := { year := 1969, month := 12, day := 31 }, hour := 23, minute := 59, second := 59,
        nanosecond := 0 }
    let first : Timestamp :=
      { date := { year := 1970, month := 1, day := 1 }, hour := 0, minute := 0, second := 0, nanosecond := 0 }
    m.updatedAt < m.createdAt ∧ last.instant < first.instant ∧
      (∃ summary, info env ⟨.file, "f"⟩ (describedDisk m) = (.ok summary, describedDisk m) ∧
        summary.createdAt = some last.rfc3339 ∧ summary.updatedAt = some first.rfc3339) ∧
      ∃ summary, info env ⟨.sqlite, "d"⟩ (describedDisk m) = (.ok summary, describedDisk m) ∧
        summary.createdAt = some last.rfc3339 ∧ summary.updatedAt = some first.rfc3339 := by
  intro env m last first
  obtain ⟨hfiles, hdatabase⟩ := stands_describedDisk m
  obtain ⟨⟨summary, hinfo⟩, summary', hinfo'⟩ := info_describedDisk env rfl (m := m) rfl
  have hshown := @showsTimes_of_info env ⟨.file, "f"⟩ m _ _ summary (hfiles.keeps rfl rfl) hinfo
  have hshown' := @showsTimes_of_info env ⟨.sqlite, "d"⟩ m _ _ summary' (hdatabase.keeps rfl rfl) hinfo'
  refine ⟨by decide, by decide, ⟨summary, hinfo, ?_, ?_⟩, summary', hinfo', ?_, ?_⟩
  · exact hshown.createdAt.eq_showEpoch?.trans (by decide)
  · exact hshown.updatedAt.eq_showEpoch?.trans (by decide)
  · exact hshown'.createdAt.eq_showEpoch?.trans (by decide)
  · exact hshown'.updatedAt.eq_showEpoch?.trans (by decide)

end Store

end RecordSearch

import RecordSearch.Proofs.Record.Lines
import RecordSearch.Proofs.Store.Disk
import RecordSearch.Proofs.Store.Metadata

/-!
# Operations of stores made of files

What opening, inserting and saving metadata do on a disk, by what stands at the locations of the store:
the directories that lead to it, the file of records, the file of metadata and its draft.
-/

namespace RecordSearch.DirectoryStore

open Disk (Made)

variable {place : Place} {store : DirectoryStore} {disk disk' made : Disk} {text : Option (List Char)}
  {records : List Record} {m : StoreMeta}

def files (place : Place) : List Location :=
  [(recordsPlace place).location, (metadataPlace place).location, (draftPlace place).location]

theorem metadataPlace_ne_recordsPlace (place : Place) :
    (metadataPlace place).location ≠ (recordsPlace place).location := by
  simp [metadataPlace, recordsPlace, Place.child]

theorem draftPlace_ne_recordsPlace (place : Place) :
    (draftPlace place).location ≠ (recordsPlace place).location := by
  simp [draftPlace, recordsPlace, Place.child]

theorem draftPlace_ne_metadataPlace (place : Place) :
    (draftPlace place).location ≠ (metadataPlace place).location := by
  simp [draftPlace, metadataPlace, Place.child]

theorem child_location_ne_nil (place : Place) (name : String) : (place.child name).location ≠ [] := by
  simp [Place.child]

theorem dropLast_child_location (place : Place) (name : String) :
    (place.child name).location.dropLast = place.location :=
  List.dropLast_concat

/-! ## Reading -/

/-- What is found where metadata may stand. -/
def foundMetadata (place : Place) : Option Entry → Except StoreError (Option StoreMeta)
  | none => .ok none
  | some (.text content) =>
      match StoreMeta.parse? content with
      | some m => m.supported.map some
      | none => .error (.invalidMetadata (metadataPlace place).path)
  | some _ => .error (.invalidMetadata (metadataPlace place).path)

def foundRecords (place : Place) : Option Entry → Except StoreError (List Record)
  | none => .ok []
  | some (.text content) =>
      (recordsOfLines 1 (Text.lines content)).mapError fun line =>
        .corruptLine line (recordsPlace place).path
  | some _ => .error .fileSystem

/-- The store that is found in a directory. -/
def found (place : Place) (disk : Disk) : Except StoreError DirectoryStore := do
  let metadata ← foundMetadata place (disk.content? (metadataPlace place).location)
  let records ← foundRecords place (disk.content? (recordsPlace place).location)
  .ok ⟨place, metadata, records⟩

theorem readMetadata_eq (place : Place) (disk : Disk) :
    readMetadata place disk =
      (foundMetadata place (disk.content? (metadataPlace place).location), disk) := by
  rw [readMetadata, Action.get_bind]
  rcases disk.content? (metadataPlace place).location with _ | _ | content | _ | _
  · rfl
  · rfl
  · rw [foundMetadata]
    dsimp only
    cases StoreMeta.parse? content with
    | none => rfl
    | some m =>
        dsimp only
        cases m.supported <;> rfl
  · rfl
  · rfl

theorem readRecords_eq (place : Place) (disk : Disk) :
    readRecords place disk =
      (foundRecords place (disk.content? (recordsPlace place).location), disk) := by
  rw [readRecords, Action.get_bind, Disk.exists?]
  cases hc : disk.content? (recordsPlace place).location with
  | none => rfl
  | some e =>
      rw [if_pos (by rfl), Action.readLines]
      cases e with
      | text content =>
          have hlines : Action.readLines (recordsPlace place).location disk =
              (.ok (Text.lines content), disk) := by
            rw [Action.readLines, Action.get_bind, hc]
            rfl
          refine (Action.bind_of_ok hlines).trans ?_
          rw [foundRecords]
          cases recordsOfLines 1 (Text.lines content) <;> rfl
      | _ =>
          refine Action.bind_of_error (e := .fileSystem) ?_
          rw [Action.get_bind, hc]
          rfl

theorem openAt_eq (h : disk.makeDirectories (directories place) = some made) :
    openAt place disk = (found place made, made) := by
  rw [openAt, Action.bind_of_ok (Action.change_of_some h), found]
  cases hm : foundMetadata place (made.content? (metadataPlace place).location) with
  | error e =>
      refine Action.bind_of_error ?_
      rw [readMetadata_eq, hm]
  | ok metadata =>
      have hmetadata : readMetadata place made = (.ok metadata, made) := by rw [readMetadata_eq, hm]
      rw [Action.bind_of_ok hmetadata, ok_bind]
      cases hr : foundRecords place (made.content? (recordsPlace place).location) with
      | error e =>
          refine Action.bind_of_error ?_
          rw [readRecords_eq, hr]
      | ok records =>
          have hrecords : readRecords place made = (.ok records, made) := by rw [readRecords_eq, hr]
          rw [Action.bind_of_ok hrecords]
          rfl

/-- A store that opens is found in directories that were made. -/
theorem openAt_eq_ok_iff :
    openAt place disk = (.ok store, made) ↔
      disk.makeDirectories (directories place) = some made ∧ found place made = .ok store := by
  constructor
  · intro h
    obtain ⟨_, d, hd, _⟩ := Action.bind_eq_ok h
    have hd := Action.change_eq_ok hd
    rw [openAt_eq hd] at h
    obtain ⟨hfound, rfl⟩ := Prod.mk.inj h
    exact ⟨hd, hfound⟩
  · rintro ⟨hd, hfound⟩
    rw [openAt_eq hd, hfound]

theorem found_eq_ok_iff :
    found place disk = .ok store ↔
      foundMetadata place (disk.content? (metadataPlace place).location) = .ok store.metadata ∧
        foundRecords place (disk.content? (recordsPlace place).location) = .ok store.records ∧
          store.place = place := by
  obtain ⟨storePlace, metadata, records⟩ := store
  simp only [found, bind_eq_ok_iff, Except.ok.injEq, DirectoryStore.mk.injEq]
  constructor
  · rintro ⟨_, hm, _, hr, rfl, rfl, rfl⟩
    exact ⟨hm, hr, rfl⟩
  · rintro ⟨hm, hr, rfl⟩
    exact ⟨_, hm, _, hr, rfl, rfl, rfl⟩

/-- Metadata as it is found when it was printed; that of another version of the format is refused. -/
def accepted : Option StoreMeta → Except StoreError (Option StoreMeta)
  | none => .ok none
  | some m => m.supported.map some

theorem foundMetadata_print (place : Place) (metadata : Option StoreMeta) :
    foundMetadata place (metadata.map fun m => .text m.print) = accepted metadata := by
  cases metadata with
  | none => rfl
  | some m =>
      simp only [Option.map_some, foundMetadata, StoreMeta.parse?_print]
      rfl

/-- Metadata is not found where a directory stands, and is of the version that the program knows. -/
theorem foundMetadata_eq_ok {e : Option Entry} {metadata : Option StoreMeta}
    (h : foundMetadata place e = .ok metadata) :
    e ≠ some .directory ∧ ∀ m ∈ metadata, m.schemaVersion = schemaVersion := by
  rcases e with _ | _ | content | _ | _
  · cases h
    exact ⟨nofun, nofun⟩
  · cases h
  · refine ⟨nofun, ?_⟩
    rw [foundMetadata] at h
    split at h
    · next m hm =>
      rw [StoreMeta.supported] at h
      split at h
      · next hv =>
        cases h
        rintro _ ⟨⟩
        exact hv
      · cases h
    · cases h
  · cases h
  · cases h

theorem foundRecords_text (place : Place) (text : Option (List Char)) :
    foundRecords place (text.map .text) =
      (recordsOfLines 1 (Text.lines (text.getD []))).mapError fun line =>
        .corruptLine line (recordsPlace place).path := by
  cases text <;> rfl

/-- Records are found only in texts. -/
theorem exists_text {e : Option Entry} (h : foundRecords place e = .ok records) :
    ∃ text : Option (List Char), e = text.map .text ∧
      recordsOfLines 1 (Text.lines (text.getD [])) = .ok records := by
  have htext : ∃ text : Option (List Char), e = text.map .text := by
    rcases e with _ | _ | content | _ | _
    · exact ⟨none, rfl⟩
    · cases h
    · exact ⟨some content, rfl⟩
    · cases h
    · cases h
  obtain ⟨text, rfl⟩ := htext
  rw [foundRecords_text] at h
  exact ⟨text, rfl, mapError_eq_ok_iff.mp h⟩

/-! ## Writing -/

/-- Metadata is not saved when a directory stands where its draft is written. -/
theorem saveMetadata_of_directory (h : disk.content? (draftPlace store.place).location = some .directory)
    (m : StoreMeta) : store.saveMetadata m disk = (.error .fileSystem, disk) := by
  have hwrite : disk.writeText? (draftPlace store.place).location m.print = none :=
    if_pos (.inl (Disk.isDirectory_iff.mpr h))
  exact Action.bind_of_error (Action.change_of_none hwrite)

/-- When a directory stands where the metadata is to be, its draft is written and stays. -/
theorem saveMetadata_of_obstructed (hd : disk.content? store.place.location = some .directory)
    (hdraft : disk.content? (draftPlace store.place).location ≠ some .directory)
    (hmeta : disk.content? (metadataPlace store.place).location = some .directory) :
    store.saveMetadata m disk = (.error .fileSystem,
      Dictionary.insert disk (draftPlace store.place).location (.text m.print)) := by
  let draft := (draftPlace store.place).location
  let target := (metadataPlace store.place).location
  let written := Dictionary.insert disk draft (.text m.print)
  have hwrite : disk.writeText? draft m.print = some written :=
    Disk.writeText?_eq (by rwa [draftPlace, dropLast_child_location]) hdraft m.print
  have hwritten : Disk.content? written draft = some (.text m.print) :=
    Disk.content?_insert (child_location_ne_nil _ _)
  have htarget : Disk.content? written target = some .directory :=
    (Disk.content?_insert_of_ne (draftPlace_ne_metadataPlace _).symm).trans hmeta
  have hrename : Disk.rename? written draft target = none := by
    rw [Disk.rename?, hwritten]
    exact if_pos (Disk.isDirectory_iff.mpr htarget)
  exact (Action.bind_of_ok (Action.change_of_some hwrite)).trans
    (Action.bind_of_error (Action.change_of_none hrename))

/-- What is appended to the file of records stands behind what it has, and everything else stays. -/
theorem exists_appendText? (hd : disk.content? place.location = some .directory)
    (hr : disk.content? (recordsPlace place).location = text.map .text) (added : List Char) :
    ∃ disk', disk.appendText? (recordsPlace place).location added = some disk' ∧
      disk'.content? (recordsPlace place).location = some (.text (text.getD [] ++ added)) ∧
      Disk.AgreeOff [(recordsPlace place).location] disk disk' ∧ ∀ ls, Made ls disk → Made ls disk' := by
  have hfile : disk.content? (recordsPlace place).location ≠ some .directory := by
    rw [hr]
    cases text <;> nofun
  exact ⟨_, Disk.appendText?_eq (by rwa [recordsPlace, dropLast_child_location]) hr added,
    Disk.content?_insert (child_location_ne_nil _ _), .insert disk (List.mem_singleton_self _) _,
    fun ls hls => hls.insert hfile _⟩

/-- An insert adds the lines of the records to the file of records and leaves everything else. -/
theorem exists_insert (hd : disk.content? store.place.location = some .directory)
    (hr : disk.content? (recordsPlace store.place).location = text.map .text) (records : List Record) :
    ∃ disk', store.insert records disk =
        (.ok { store with records := store.records ++ records }, disk') ∧
      disk'.content? (recordsPlace store.place).location =
        some (.text (text.getD [] ++ records.flatMap Record.line)) ∧
      Disk.AgreeOff [(recordsPlace store.place).location] disk disk' ∧
      ∀ ls, Made ls disk → Made ls disk' := by
  obtain ⟨disk', happend, hleft⟩ := exists_appendText? hd hr (records.flatMap Record.line)
  refine ⟨disk', ?_, hleft⟩
  rw [insert, Action.bind_of_ok (Action.change_of_some happend)]
  rfl

/-- Saving puts the metadata in its file, and of its draft nothing is left. -/
theorem exists_saveMetadata (hd : disk.content? store.place.location = some .directory)
    (hdraft : disk.content? (draftPlace store.place).location ≠ some .directory)
    (hmeta : disk.content? (metadataPlace store.place).location ≠ some .directory) (m : StoreMeta) :
    ∃ disk', store.saveMetadata m disk = (.ok { store with metadata := some m }, disk') ∧
      disk'.content? (metadataPlace store.place).location = some (.text m.print) ∧
      disk'.content? (draftPlace store.place).location = none ∧
      Disk.AgreeOff [(metadataPlace store.place).location, (draftPlace store.place).location] disk disk' ∧
      ∀ ls, Made ls disk → Made ls disk' := by
  let draft := (draftPlace store.place).location
  let target := (metadataPlace store.place).location
  let written := Dictionary.insert disk draft (.text m.print)
  have hne : draft ≠ target := draftPlace_ne_metadataPlace _
  have hwrite : disk.writeText? draft m.print = some written :=
    Disk.writeText?_eq (by rwa [draftPlace, dropLast_child_location]) hdraft m.print
  have hwritten : Disk.content? written draft = some (.text m.print) :=
    Disk.content?_insert (child_location_ne_nil _ _)
  have htarget : Disk.content? written target ≠ some .directory := by
    rwa [Disk.content?_insert_of_ne hne.symm]
  have hrename := Disk.rename?_eq hwritten htarget
  have herased : Disk.content? (Dictionary.erase written draft) target ≠ some .directory := by
    rwa [Disk.content?_erase_of_ne hne.symm]
  refine ⟨Dictionary.insert (Dictionary.erase written draft) target (.text m.print), ?_,
    Disk.content?_insert (child_location_ne_nil _ _), ?_, ?_, fun ls hls => ?_⟩
  · rw [saveMetadata, Action.bind_of_ok (Action.change_of_some hwrite),
      Action.bind_of_ok (Action.change_of_some hrename)]
    rfl
  · rw [Disk.content?_insert_of_ne hne]
    exact Disk.content?_erase_self (child_location_ne_nil _ _)
  · have hdraftOwn : draft ∈ [target, draft] := by simp
    exact ((Disk.AgreeOff.insert disk hdraftOwn _).trans (.erase written hdraftOwn)).trans
      (.insert _ (List.mem_cons_self ..) _)
  · exact ((hls.insert hdraft _).erase (by rw [hwritten]; nofun)).insert herased _

end RecordSearch.DirectoryStore

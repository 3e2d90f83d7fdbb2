import RecordSearch.Proofs.Store.Loading

/-!
# Opening again after an insert

A directory that opens as a store may hold a file of records whose last line is not finished. The first
inserted record goes on with that line. So the store opens again with all records just if nothing was
inserted or nothing but blanks stand on that line; otherwise it is refused.
-/

namespace RecordSearch

open Text

namespace DirectoryStore

variable {place : Place} {disk opened later : Disk} {store : DirectoryStore} {old records : List Record}

/-- The text of the file of records; a missing file counts as an empty one. -/
def recordsText (place : Place) (disk : Disk) : List Char :=
  match disk.content? (recordsPlace place).location with
  | some (.text content) => content
  | _ => []

/-- What a store that holds `old` and to whose file of records `records` were appended opens with. -/
def regained (place : Place) (content : List Char) (old records : List Record) :
    Except StoreError (List Record) :=
  if records = [] ∨ Appendable content then .ok (old ++ records)
  else .error (.corruptLine ((finishedLines content).length + 1) (recordsPlace place).path)

/-- The disk of a store to whose text of records something was appended. -/
structure Appended (place : Place) (content added : List Char) (disk : Disk) : Prop where
  made : Disk.Made (directories place) disk
  metadata : ∃ found, foundMetadata place (disk.content? (metadataPlace place).location) = .ok found
  text : disk.content? (recordsPlace place).location = some (.text (content ++ added))

theorem Appended.openAt {content added : List Char} (h : Appended place content added later) :
    (openAt place later).1.map DirectoryStore.records =
      (recordsOfLines 1 (lines (content ++ added))).mapError fun line =>
        .corruptLine line (recordsPlace place).path := by
  obtain ⟨metadata, hm⟩ := h.metadata
  have hfound := foundRecords_text place (some (content ++ added))
  rw [Option.map_some, Option.getD_some] at hfound
  rw [openAt_eq (Disk.makeDirectories_of_made h.made), found, hm, ok_bind, h.text, hfound]
  cases recordsOfLines 1 (lines (content ++ added)) <;> rfl

theorem Appended.openAt_records {content : List Char}
    (h : Appended place content (records.flatMap Record.line) later)
    (hold : recordsOfLines 1 (lines content) = .ok old) :
    (DirectoryStore.openAt place later).1.map DirectoryStore.records = regained place content old records := by
  rw [h.openAt, recordsOfLines_append_records hold, regained]
  split <;> rfl

/-- What is done elsewhere leaves the records. -/
theorem Appended.congr {content added : List Char} (h : Appended place content added disk)
    (hagree : Disk.AgreeOff [(draftPlace place).location] disk later)
    (hstays : ∀ ls, Disk.Made ls disk → Disk.Made ls later) : Appended place content added later where
  made := hstays _ h.made
  metadata := by
    rw [hagree _ (by simpa using (draftPlace_ne_metadataPlace place).symm)]
    exact h.metadata
  text := (hagree _ (by simpa using (draftPlace_ne_recordsPlace place).symm)).trans h.text

/-- Saving metadata keeps the records, also when it fails. -/
theorem Appended.saveMetadata {content added : List Char} {m : StoreMeta}
    (h : Appended store.place content added disk) (hm : m.schemaVersion = schemaVersion) :
    Appended store.place content added (store.saveMetadata m disk).2 := by
  by_cases hdraft : disk.content? (draftPlace store.place).location = some .directory
  · rw [saveMetadata_of_directory hdraft]
    exact h
  · obtain ⟨found, hfound⟩ := h.metadata
    have hd : disk.content? store.place.location = some .directory :=
      h.made _ (List.mem_append_right _ (List.mem_singleton_self _))
    obtain ⟨disk', hsave, hmeta, _, hagree, hstays⟩ :=
      exists_saveMetadata hd hdraft (foundMetadata_eq_ok hfound).1 m
    rw [hsave]
    refine ⟨hstays _ h.made, ⟨some m, ?_⟩, ?_⟩
    · have hprint := foundMetadata_print store.place (some m)
      rw [Option.map_some, accepted, StoreMeta.supported_eq_ok hm] at hprint
      rw [hmeta]
      exact hprint
    · rw [hagree _ (by simp [(metadataPlace_ne_recordsPlace _).symm, (draftPlace_ne_recordsPlace _).symm])]
      exact h.text

theorem Appended.saveMetadataUpTo {content added : List Char} (h : Appended store.place content added disk)
    (m : StoreMeta) (written : Option Nat) :
    Appended store.place content added (store.saveMetadataUpTo m written disk).2 := by
  cases written with
  | none => exact h
  | some n =>
      let draft := (draftPlace store.place).location
      cases hw : Disk.writeBytes? (disk.writeText? draft) draft n m.print with
      | none =>
          have hsave : store.saveMetadataUpTo m (some n) disk = (.error .fileSystem, disk) :=
            Action.bind_of_error (Action.change_of_none hw)
          rw [hsave]
          exact h
      | some d =>
          have hsave : store.saveMetadataUpTo m (some n) disk = (.error .fileSystem, d) :=
            Action.bind_of_ok (Action.change_of_some hw)
          obtain ⟨hagree, hstays⟩ := Disk.agreeOff_of_writeBytes? hw
          rw [hsave]
          exact h.congr hagree hstays

theorem exists_text_of_openAt (ho : openAt place disk = (.ok store, opened)) :
    ∃ text : Option (List Char), opened.content? (recordsPlace place).location = text.map .text ∧
      recordsText place disk = text.getD [] ∧
      recordsOfLines 1 (lines (text.getD [])) = .ok store.records := by
  obtain ⟨hd, hfound⟩ := openAt_eq_ok_iff.mp ho
  obtain ⟨_, hrecords, _⟩ := found_eq_ok_iff.mp hfound
  obtain ⟨text, htext, hlines⟩ := exists_text hrecords
  refine ⟨text, htext, ?_, hlines⟩
  rcases Disk.content?_makeDirectories hd (recordsPlace place).location with hc | hc
  · rw [recordsText, ← hc, htext]
    cases text <;> rfl
  · rw [htext] at hc
    cases text <;> cases hc

/-- What is appended to the file of records of an open store stands behind what the store has read. -/
theorem exists_appended (ho : openAt place disk = (.ok store, opened)) (added : List Char) :
    ∃ grown, opened.appendText? (recordsPlace place).location added = some grown ∧
      Appended place (recordsText place disk) added grown := by
  obtain ⟨text, htext, hbefore, _⟩ := exists_text_of_openAt ho
  obtain ⟨hd, hfound⟩ := openAt_eq_ok_iff.mp ho
  obtain ⟨hmetadata, _, _⟩ := found_eq_ok_iff.mp hfound
  have hmade := Disk.made_of_makeDirectories hd
  have hparent : opened.content? place.location = some .directory :=
    hmade _ (List.mem_append_right _ (List.mem_singleton_self _))
  obtain ⟨grown, happend, hgrown, hagree, hstays⟩ := exists_appendText? hparent htext added
  refine ⟨grown, happend, hstays _ hmade, ⟨store.metadata, ?_⟩, hbefore ▸ hgrown⟩
  rw [hagree _ (by simpa using metadataPlace_ne_recordsPlace place)]
  exact hmetadata

theorem place_of_openAt (ho : openAt place disk = (.ok store, opened)) : store.place = place :=
  (found_eq_ok_iff.mp (openAt_eq_ok_iff.mp ho).2).2.2

/-- A store that opens has metadata of the version that the program knows, or none. -/
theorem loadMetadata_version (ho : openAt place disk = (.ok store, opened)) (now : UInt64) :
    (store.loadMetadata now).schemaVersion = schemaVersion := by
  have hmetadata := (found_eq_ok_iff.mp (openAt_eq_ok_iff.mp ho).2).1
  have hversion := (foundMetadata_eq_ok hmetadata).2
  rw [loadMetadata]
  cases hm : store.metadata with
  | none => rfl
  | some saved => exact hversion saved hm

theorem appended_of_insert (ho : openAt place disk = (.ok store, opened)) (records : List Record) :
    ∃ grown, store.insert records opened =
        (.ok { store with records := store.records ++ records }, grown) ∧
      Appended place (recordsText place disk) (records.flatMap Record.line) grown := by
  obtain ⟨grown, happend, happended⟩ := exists_appended ho (records.flatMap Record.line)
  rw [← place_of_openAt ho] at happend
  exact ⟨grown, Action.bind_of_ok (Action.change_of_some happend), happended⟩

end DirectoryStore

namespace Store

open DirectoryStore (Appended recordsText regained)

variable {env : Surroundings} {path input : String} {disk opened : Disk} {store : DirectoryStore}
  {records : List Record}

/-- A load appends to what the store has read, whether or not its metadata is saved then. -/
theorem appended_of_load
    (ho : DirectoryStore.openAt (Place.ofPath env.workingDirectory path) disk = (.ok store, opened))
    (hi : inputIn env input disk = .ok records) :
    Appended (Place.ofPath env.workingDirectory path)
      (recordsText (Place.ofPath env.workingDirectory path) disk) (records.flatMap Record.line)
      (load env ⟨.file, path⟩ input disk).2 := by
  obtain ⟨grown, hinsert, happended⟩ := DirectoryStore.appended_of_insert ho records
  have hplace := DirectoryStore.place_of_openAt ho
  let inserted := { store with records := store.records ++ records }
  let m := (store.loadMetadata env.now).touched env.now
  have hversion : m.schemaVersion = schemaVersion := DirectoryStore.loadMetadata_version ho env.now
  have hload : load env ⟨.file, path⟩ input disk = _ :=
    load_eq hi (Action.map_of_ok _ ho) rfl (Action.map_of_ok Store.directory hinsert)
  have hstate : (load env ⟨.file, path⟩ input disk).2 = (inserted.saveMetadata m grown).2 := by
    rw [hload]
    rcases hsave : inserted.saveMetadata m grown with ⟨_ | saved, d⟩
    · exact congrArg Prod.snd (Action.bind_of_error (Action.map_of_error Store.directory hsave))
    · refine (congrArg Prod.snd (Action.bind_of_ok (Action.map_of_ok Store.directory hsave))).trans ?_
      exact congrArg Prod.snd (summary_eq (.directory saved) (fun _ => rfl) m (some records.length))
  rw [hstate]
  rw [← hplace] at happended ⊢
  have happended : Appended inserted.place (recordsText store.place disk) _ grown := happended
  exact happended.saveMetadata hversion

/-- When a directory opens as a store and records are inserted, by a handle or by a load, it opens again
with the records that were there and the inserted ones behind them, provided that there was nothing to
insert or nothing but blanks stood after the last line feed of its file of records. Otherwise the line that
was not finished is refused, though the insert has succeeded. -/
theorem openAt_after_insert (env : Surroundings) (path : String)
    (ho : DirectoryStore.openAt (Place.ofPath env.workingDirectory path) disk = (.ok store, opened))
    (records : List Record) :
    let place := Place.ofPath env.workingDirectory path
    let expected := regained place (recordsText place disk) store.records records
    (∃ inserted grown, store.insert records opened = (.ok inserted, grown) ∧
      (DirectoryStore.openAt place grown).1.map DirectoryStore.records = expected) ∧
    ∀ input, (readInput env input disk).1 = .ok records →
      (DirectoryStore.openAt place (load env ⟨.file, path⟩ input disk).2).1.map DirectoryStore.records =
        expected := by
  intro place expected
  obtain ⟨text, _, hbefore, hlines⟩ := DirectoryStore.exists_text_of_openAt ho
  rw [← hbefore] at hlines
  constructor
  · obtain ⟨grown, hinsert, happended⟩ := DirectoryStore.appended_of_insert ho records
    exact ⟨_, grown, hinsert, happended.openAt_records hlines⟩
  · intro input hi
    rw [readInput_eq] at hi
    exact (appended_of_load ho hi).openAt_records hlines

/-- A directory `s` with a file of records that has the given text, and nothing else. -/
def diskOf (content : List Char) : Disk := ⟨[(["s"], .directory), (["s", "records.jsonl"], .text content)]⟩

theorem ofPath_s : Place.ofPath [] "s" = ⟨"s", ["s"], [[]]⟩ := by decide

theorem recordsText_diskOf (content : List Char) :
    recordsText (Place.ofPath [] "s") (diskOf content) = content := by
  rw [ofPath_s]
  rfl

theorem openAt_diskOf {content : List Char} {records : List Record}
    (h : recordsOfLines 1 (Text.lines content) = .ok records) :
    DirectoryStore.openAt (Place.ofPath [] "s") (diskOf content) =
      (.ok ⟨Place.ofPath [] "s", none, records⟩, diskOf content) := by
  rw [ofPath_s]
  refine DirectoryStore.openAt_eq_ok_iff.mpr ⟨rfl, DirectoryStore.found_eq_ok_iff.mpr ⟨rfl, ?_, rfl⟩⟩
  change (recordsOfLines 1 (Text.lines content)).mapError _ = _
  rw [h]
  rfl

/-- Behind a line with a carriage return and another blank line a record is read. -/
theorem openAt_after_insert_return :
    let account : Record := .account ⟨"al", "al@green", true⟩
    let disk := diskOf (account.print ++ ['\r', '\n', '\r'])
    ∃ store inserted grown,
      DirectoryStore.openAt (Place.ofPath [] "s") disk = (.ok store, disk) ∧
      store.insert [account] disk = (.ok inserted, grown) ∧
      (DirectoryStore.openAt (Place.ofPath [] "s") grown).1.map DirectoryStore.records =
        .ok [account, account] := by
  intro account disk
  have hreturn : '\n' ∉ account.print ++ ['\r'] := by
    simpa using account.newline_not_mem_print
  have htext : account.print ++ ['\r', '\n', '\r'] = [] ++ ((account.print ++ ['\r']) ++ '\n' :: ['\r']) := by
    simp
  have hlines : lines (account.print ++ ['\r', '\n', '\r']) = [account.print, ['\r']] := by
    rw [htext, lines_append_line [] hreturn]
    have hdrop : dropReturn (account.print ++ ['\r']) = account.print := by simp [dropReturn]
    change dropReturn (account.print ++ ['\r']) :: _ = _
    rw [hdrop]
    rfl
  have hblank : allBlank account.print = false := account.allBlank_append_print []
  have hrecords : recordsOfLines 1 (lines (account.print ++ ['\r', '\n', '\r'])) = .ok [account] := by
    rw [hlines, recordsOfLines, hblank, account.parse_print]
    rfl
  have hfree : Appendable (account.print ++ ['\r', '\n', '\r']) := by
    rw [Appendable, htext, unfinishedLine_append_line [] hreturn]
    rfl
  have hopen := openAt_diskOf hrecords
  obtain ⟨⟨inserted, grown, hinsert, hreopen⟩, _⟩ :=
    openAt_after_insert ⟨[], 0⟩ "s" hopen [account]
  refine ⟨_, inserted, grown, hopen, hinsert, hreopen.trans ?_⟩
  exact if_pos (.inr hfree)

/-- When the last line of a file of records is not finished, the store opens and takes a record, and is
refused afterwards. -/
theorem openAt_refused_after_insert :
    let account : Record := .account ⟨"al", "al@green", true⟩
    let disk := diskOf account.print
    ∃ store inserted grown,
      DirectoryStore.openAt (Place.ofPath [] "s") disk = (.ok store, disk) ∧ store.records = [account] ∧
      store.insert [account] disk = (.ok inserted, grown) ∧
      (DirectoryStore.openAt (Place.ofPath [] "s") grown).1.map DirectoryStore.records =
        .error (.corruptLine 1 "s/records.jsonl") := by
  intro account disk
  have hne : account.print ≠ [] := by
    obtain ⟨body, h⟩ := account.print_eq
    rw [h]
    exact List.cons_ne_nil _ _
  have hlast := unfinishedLine_of_not_mem account.newline_not_mem_print
  have hfirst := finishedLines_of_not_mem account.newline_not_mem_print
  have hlines : lines account.print = [account].map Record.print := by
    rw [lines_eq, hlast, hfirst, if_neg hne]
    rfl
  have hrecords : recordsOfLines 1 (lines account.print) = .ok [account] := by
    rw [hlines, recordsOfLines_print]
  have hopen := openAt_diskOf hrecords
  obtain ⟨grown, hinsert, happended⟩ := DirectoryStore.appended_of_insert hopen [account]
  rw [recordsText_diskOf] at happended
  refine ⟨_, _, grown, hopen, rfl, hinsert, (happended.openAt_records hrecords).trans ?_⟩
  have hglued : ¬ ([account] = [] ∨ Appendable account.print) := by
    rw [Appendable, hlast]
    simp [account.skipGaps_print]
  have hpath : (DirectoryStore.recordsPlace (Place.ofPath [] "s")).path = "s/records.jsonl" := by decide
  rw [regained, if_neg hglued, hfirst, hpath]
  rfl

end Store

end RecordSearch

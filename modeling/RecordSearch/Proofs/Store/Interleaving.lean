import Mathlib
import RecordSearch.Proofs.Store.Loading
import RecordSearch.Proofs.Store.Session

/-!
# Handles and loads on one directory

A handle on a directory keeps the records in memory, and a load opens the same directory on its own. In
whatever order inserts, loads, saves and reopens follow each other, the file of records holds the records of
all that completed, and a handle has seen what was there when it was opened and what it inserted itself.
-/

namespace RecordSearch

namespace Occurrence

/-- The records that came into the store, if the step completed. -/
def completed : Occurrence → List Record
  | ⟨_, .insert records, _, .inserted _⟩ => records
  | ⟨env, .load input, disk, .summary _⟩ => (Store.inputIn env input disk).toOption.getD []
  | _ => []

def inserted : Occurrence → List Record
  | ⟨_, .insert records, _, .inserted _⟩ => records
  | _ => []

/-- The metadata saved last, after what was saved before. A load saves the old metadata with a new time. -/
def saved (before : Option StoreMeta) : Occurrence → Option StoreMeta
  | ⟨_, .saveMetadata m, _, .saved⟩ => some m
  | ⟨env, .load _, _, .summary _⟩ => some ((before.getD (.fresh env.now)).touched env.now)
  | _ => before

def record (ledger : Ledger) (o : Occurrence) : Ledger :=
  ⟨ledger.records ++ o.completed, o.saved ledger.metadata⟩

theorem foldl_record (ledger : Ledger) (happened : List Occurrence) :
    happened.foldl record ledger =
      ⟨ledger.records ++ happened.flatMap completed, happened.foldl saved ledger.metadata⟩ := by
  induction happened generalizing ledger with
  | nil => rw [List.flatMap_nil, List.append_nil]; rfl
  | cons o happened ih =>
      rw [List.foldl_cons, ih, List.flatMap_cons, List.foldl_cons, record, List.append_assoc]

theorem flatMap_of_map {happened : List Occurrence} {brought : List (List Record × List Record)}
    (h : happened.map (fun o => (o.completed, o.inserted)) = brought) :
    happened.flatMap completed = (brought.map Prod.fst).flatten ∧
      happened.flatMap inserted = (brought.map Prod.snd).flatten := by
  subst h
  simp [List.flatMap_def, Function.comp_def]

variable {env : Surroundings} {step : Step} {disk : Disk} {ledger : Ledger}

theorem record_of_completed {o : Occurrence} (h : o.completed = []) :
    o.record ledger = ⟨ledger.records, o.saved ledger.metadata⟩ := by
  rw [record, h, List.append_nil]

theorem record_failed (e : StoreError) : record ledger ⟨env, step, disk, .failed e⟩ = ledger := by
  cases step <;> exact record_of_completed rfl

/-- Only metadata of another version that is saved by hand makes a store unreadable. -/
theorem supported_record {answer : Answer} (h : ledger.Supported)
    (hs : ∀ m, step = .saveMetadata m → m.schemaVersion = schemaVersion) :
    (record ledger ⟨env, step, disk, answer⟩).Supported := by
  intro m hm
  change saved ledger.metadata ⟨env, step, disk, answer⟩ = some m at hm
  unfold saved at hm
  split at hm
  · next heq =>
    cases heq
    cases hm
    exact hs _ rfl
  · cases hm
    exact h.loadMetadata _
  · exact h m hm

/-- What was asked of the store has been done; an input that cannot be read is not asked for. -/
def Completes : Occurrence → Prop
  | ⟨_, .insert records, _, answer⟩ => answer = .inserted records.length
  | ⟨_, .saveMetadata _, _, answer⟩ => answer = .saved
  | ⟨env, .load input, disk, answer⟩ =>
      ∀ records, Store.inputIn env input disk = .ok records → ∃ summary, answer = .summary summary
  | _ => True

end Occurrence

namespace Step

/-- Nothing that belongs to the store is changed by others. -/
def LeavesAlone (own : List Location) : Step → Prop
  | .outside l _ => l ∉ own
  | _ => True

end Step

namespace DirectoryStore

variable {env : Surroundings} {path : String} {place : Place} {ledger ledger' : Ledger} {seen : List Record}
  {metadata : Option StoreMeta} {disk : Disk} {s next : Session} {answer : Answer}

/-- The directory holds what the ledger says, or nothing was opened yet. The handle has seen `seen`. -/
structure Kept (place : Place) (ledger : Ledger) (seen : List Record) (s : Session) : Prop where
  disk : Stands place ledger s.disk ∨ s.handle = none ∧ ledger = {} ∧ Backend.file.Vacant place s.disk
  handle : ∀ store, s.handle = some store → ∃ metadata, store = .directory ⟨place, metadata, seen⟩

namespace Kept

theorem closed (h : Stands place ledger disk) (seen : List Record) : Kept place ledger seen ⟨disk, none⟩ :=
  ⟨.inl h, nofun⟩

theorem opened (h : Stands place ledger disk) (metadata : Option StoreMeta) (seen : List Record) :
    Kept place ledger seen ⟨disk, some (.directory ⟨place, metadata, seen⟩)⟩ where
  disk := .inl h
  handle := by
    rintro _ ⟨⟩
    exact ⟨metadata, rfl⟩

theorem vacant (hv : Backend.file.Vacant place disk) : Kept place {} [] ⟨disk, none⟩ :=
  ⟨.inr ⟨rfl, rfl, hv⟩, nofun⟩

theorem readRecords (h : Kept place ledger seen s) :
    readRecords place s.disk = (.ok ledger.records, s.disk) := by
  rw [readRecords_eq]
  rcases h.disk with hstands | ⟨_, rfl, hvacant⟩
  · rw [hstands.foundRecords]
  · rw [hvacant.vacant _ (List.mem_cons_self ..)]
    rfl

theorem openAt (h : Kept place ledger seen s) :
    (openAt place s.disk).1 = (accepted ledger.metadata).map fun m => ⟨place, m, ledger.records⟩ := by
  rcases h.disk with hstands | ⟨_, rfl, hvacant⟩
  · rw [hstands.openAt]
  · obtain ⟨made, hopen, _⟩ := exists_openAt hvacant
    rw [hopen]
    rfl

/-- Opening the store gives all that the ledger says, unless the metadata is of another version. -/
theorem exists_open (hp : Place.ofPath env.workingDirectory path = place) (h : Kept place ledger seen s) :
    ∃ disk', Stands place ledger disk' ∧
      ((¬ ledger.Supported ∧ ∃ e, Store.openOrCreate env ⟨.file, path⟩ s.disk = (.error e, disk')) ∨
        ledger.Supported ∧
          Store.openOrCreate env ⟨.file, path⟩ s.disk = (.ok (ledger.store .file place), disk')) := by
  subst hp
  rcases h.disk with hstands | ⟨_, rfl, hvacant⟩
  · -- A store that stands is refused only for its metadata.
    refine ⟨s.disk, hstands, ?_⟩
    by_cases hs : ledger.Supported
    · exact .inr ⟨hs, Backend.Stands.openOrCreate env hstands hs⟩
    · obtain ⟨e, he⟩ := accepted_of_not_supported hs
      have hopen := hstands.openAt
      rw [he] at hopen
      exact .inl ⟨hs, e, Action.map_of_error _ hopen⟩
  · obtain ⟨made, hopen, hstands, _⟩ := exists_openAt hvacant
    exact ⟨made, hstands, .inr ⟨nofun, Action.map_of_ok _ hopen⟩⟩

/-- What the handle that a step works with has seen: all that is there if the step opens it. -/
def seenBy (ledger : Ledger) (seen : List Record) (s : Session) : Step → List Record
  | .reopen => ledger.records
  | _ => if s.handle = none then ledger.records else seen

theorem seenBy_of_opens {step : Step} (h : step = .reopen ∨ s.handle = none) :
    seenBy ledger seen s step = ledger.records := by
  cases step with
  | reopen => rfl
  | _ => exact if_pos (h.resolve_left nofun)

theorem seenBy_of_open {step : Step} (hs : s.handle ≠ none) (hr : step ≠ .reopen) :
    seenBy ledger seen s step = seen := by
  cases step with
  | reopen => exact absurd rfl hr
  | _ => exact if_neg hs

theorem of_inserted_nil {o : Occurrence} (hi : o.inserted = []) (hr : o.record ledger = ledger')
    (h : Kept place ledger' seen s) : Kept place (o.record ledger) (seen ++ o.inserted) s := by
  rw [hr, hi, List.append_nil]
  exact h

/-- What an action through a handle does to a directory that stands. -/
def Works (place : Place) (ledger : Ledger) (action : Store → Action (Answer × Store))
    (occurrence : Answer → Occurrence) : Prop :=
  ∀ metadata seen disk, Stands place ledger disk →
    ∃ answer metadata' disk',
      action (.directory ⟨place, metadata, seen⟩) disk =
          (.ok (answer, .directory ⟨place, metadata', seen ++ (occurrence answer).inserted⟩), disk') ∧
        Stands place ((occurrence answer).record ledger) disk'

theorem Works.read {action : Store → Action (Answer × Store)} {occurrence : Answer → Occurrence}
    (hi : ∀ answer, (occurrence answer).inserted = [])
    (hr : ∀ answer, (occurrence answer).record ledger = ledger)
    (ha : ∀ files disk, ∃ answer, action (.directory files) disk = (.ok (answer, .directory files), disk)) :
    Works place ledger action occurrence := by
  intro metadata seen disk hstands
  obtain ⟨answer, haction⟩ := ha ⟨place, metadata, seen⟩ disk
  refine ⟨answer, metadata, disk, ?_, ?_⟩
  · rw [hi, List.append_nil]
    exact haction
  · rw [hr]
    exact hstands

/-- A step through the handle fails to open it, or goes on with a handle on a directory that stands. -/
theorem use_cases (hp : Place.ofPath env.workingDirectory path = place) (h : Kept place ledger seen s) :
    (∃ e d, ¬ ledger.Supported ∧ Stands place ledger d ∧
        ∀ action, Session.use env ⟨.file, path⟩ action s = (.failed e, ⟨d, none⟩)) ∨
      ∃ metadata d, Stands place ledger d ∧
        ∀ action, Session.use env ⟨.file, path⟩ action s =
          Session.act action
            (.directory ⟨place, metadata, if s.handle = none then ledger.records else seen⟩) d := by
  cases hh : s.handle with
  | none =>
      obtain ⟨d, hstands, ⟨hv, e, hopen⟩ | ⟨_, hopen⟩⟩ := h.exists_open hp
      · refine .inl ⟨e, d, hv, hstands, fun action => ?_⟩
        rw [Session.use, hh]
        simp only [hopen]
      · refine .inr ⟨ledger.metadata, d, hstands, fun action => ?_⟩
        rw [Session.use, hh]
        simp only [hopen]
        rfl
  | some store =>
      obtain ⟨metadata, rfl⟩ := h.handle store hh
      have hstands : Stands place ledger s.disk :=
        h.disk.resolve_right fun hn => Option.some_ne_none _ (hh.symm.trans hn.1)
      refine .inr ⟨metadata, s.disk, hstands, fun action => ?_⟩
      rw [Session.use, hh]
      rfl

theorem use {step : Step} {action : Store → Action (Answer × Store)}
    (hp : Place.ofPath env.workingDirectory path = place)
    (h : Kept place ledger seen s) (ha : Works place ledger action (⟨env, step, s.disk, ·⟩))
    (hs : Session.use env ⟨.file, path⟩ action s = (answer, next)) :
    let o : Occurrence := ⟨env, step, s.disk, answer⟩
    Kept place (o.record ledger) ((if s.handle = none then ledger.records else seen) ++ o.inserted) next := by
  rcases h.use_cases hp with ⟨e, d, _, hstands, huse⟩ | ⟨metadata, d, hstands, huse⟩
  · rw [huse] at hs
    cases hs
    -- There is no handle now, so whatever it is said to have seen will do.
    refine closed ?_ _
    rw [Occurrence.record_failed]
    exact hstands
  · obtain ⟨answer', metadata', d', haction, hstands'⟩ := ha metadata _ d hstands
    rw [huse, Session.act, haction] at hs
    cases hs
    exact opened hstands' metadata' _

theorem reopen (hp : Place.ofPath env.workingDirectory path = place) (h : Kept place ledger seen s)
    (hs : Session.reopen env ⟨.file, path⟩ s = (answer, next)) : Kept place ledger ledger.records next := by
  obtain ⟨disk', hstands, ⟨_, e, hopen⟩ | ⟨_, hopen⟩⟩ := h.exists_open hp
  · rw [Session.reopen, hopen] at hs
    cases hs
    exact closed hstands _
  · rw [Session.reopen, hopen] at hs
    cases hs
    exact opened hstands _ _

theorem elsewhere {step : Step} (hr : step ≠ .reopen) (h : Kept place ledger seen s)
    (hd : Stands place ledger' disk ∨ s.handle = none ∧ ledger' = {} ∧ Backend.file.Vacant place disk) :
    Kept place ledger' (seenBy ledger seen s step) { s with disk := disk } :=
  ⟨hd, fun store (hs : s.handle = some store) => by
    rw [seenBy_of_open (fun hn => Option.some_ne_none _ (hs.symm.trans hn)) hr]
    exact h.handle store hs⟩

theorem load {input : String} (hp : Place.ofPath env.workingDirectory path = place)
    (h : Kept place ledger seen s)
    (hs : Session.step env ⟨.file, path⟩ (.load input) s = (answer, next)) :
    let o : Occurrence := ⟨env, .load input, s.disk, answer⟩
    Kept place (o.record ledger) (seenBy ledger seen s (.load input) ++ o.inserted) next := by
  rw [Session.step, Session.describe] at hs
  cases hi : Store.inputIn env input s.disk with
  | error e =>
      rw [Store.load_of_refused hi] at hs
      cases hs
      exact of_inserted_nil rfl (Occurrence.record_failed e) (h.elsewhere (by simp) h.disk)
  | ok records =>
      obtain ⟨disk', hstands, ⟨_, e, hopen⟩ | ⟨hsupported, hopen⟩⟩ := h.exists_open hp
      · have hread : Store.readInput env input s.disk = (.ok records, s.disk) := by
          rw [Store.readInput_eq, hi]
        rw [Store.load_eq_bind, Action.bind_of_ok hread, Action.bind_of_error hopen] at hs
        cases hs
        exact of_inserted_nil rfl (Occurrence.record_failed e) (h.elsewhere (by simp) (.inl hstands))
      · subst hp
        obtain ⟨d, hload, hstands', _⟩ := Backend.Stands.exists_load env hi hopen hstands hsupported
        rw [hload] at hs
        cases hs
        refine of_inserted_nil rfl ?_ (h.elsewhere (by simp) (.inl hstands'))
        rw [Occurrence.record, Occurrence.completed, hi]
        rfl

theorem info (hp : Place.ofPath env.workingDirectory path = place) (h : Kept place ledger seen s)
    (hs : Session.step env ⟨.file, path⟩ .info s = (answer, next)) :
    Kept place ledger (seenBy ledger seen s .info) next := by
  have hd : Stands place ledger (Store.info env ⟨.file, path⟩ s.disk).2 ∨
      s.handle = none ∧ ledger = {} ∧ Backend.file.Vacant place (Store.info env ⟨.file, path⟩ s.disk).2 := by
    rcases Store.openExisting_eq env ⟨.file, path⟩ s.disk with ⟨e, hexisting⟩ | hexisting
    · rw [Store.info, Action.bind_of_error hexisting]
      exact h.disk
    · obtain ⟨d, hstands, ⟨_, e, hopen⟩ | ⟨_, hopen⟩⟩ := h.exists_open hp
      · rw [Store.info, Action.bind_of_error (hexisting.trans hopen)]
        exact .inl hstands
      · have hsummary (m : StoreMeta) : ((ledger.store .file place).summary m none d).2 = d := by
          rw [Store.summary_eq _ (fun _ => rfl)]
        rw [Store.info, Action.bind_of_ok (hexisting.trans hopen)]
        exact .inl ((hsummary _).symm ▸ hstands)
  rw [Session.step, Session.describe] at hs
  cases hi : Store.info env ⟨.file, path⟩ s.disk with
  | mk result d =>
      rw [hi] at hs hd
      cases result <;> cases hs <;> exact h.elsewhere (by simp) hd

/-- Each step records what completed, and the handle sees what was inserted through it. -/
theorem step {step : Step} (hp : Place.ofPath env.workingDirectory path = place)
    (h : Kept place ledger seen s) (hl : step.LeavesAlone (Backend.file.own place))
    (hs : Session.step env ⟨.file, path⟩ step s = (answer, next)) :
    let o : Occurrence := ⟨env, step, s.disk, answer⟩
    Kept place (o.record ledger) (seenBy ledger seen s step ++ o.inserted) next := by
  cases step with
  | reopen => exact of_inserted_nil rfl (Occurrence.record_of_completed rfl) (h.reopen hp hs)
  | insert records =>
      refine h.use hp (fun metadata seen disk hstands => ?_) hs
      obtain ⟨disk', hinsert, hstands', _⟩ := Stands.exists_insert ⟨place, metadata, seen⟩ hstands records
      exact ⟨_, _, disk', Action.bind_of_ok (Action.map_of_ok _ hinsert), hstands'⟩
  | count _ | find _ _ | loadMetadata =>
      refine h.use hp (.read (fun _ => rfl) (fun _ => ?_) fun _ _ => ⟨_, rfl⟩) hs
      exact Occurrence.record_of_completed rfl
  | saveMetadata m =>
      refine h.use hp (fun metadata seen disk hstands => ?_) hs
      obtain ⟨disk', hsave, hstands', _⟩ := Stands.exists_saveMetadata ⟨place, metadata, seen⟩ hstands m
      have hseen : seen ++ (⟨env, .saveMetadata m, s.disk, .saved⟩ : Occurrence).inserted = seen :=
        List.append_nil seen
      refine ⟨.saved, some m, disk', ?_, ?_⟩
      · rw [hseen]
        exact Action.bind_of_ok (Action.map_of_ok _ hsave)
      · rw [Occurrence.record_of_completed rfl]
        exact hstands'
  | load input => exact h.load hp hs
  | info => exact of_inserted_nil rfl (Occurrence.record_of_completed rfl) (h.info hp hs)
  | outside l entry =>
      cases hs
      refine of_inserted_nil rfl (Occurrence.record_of_completed rfl) (h.elsewhere (by simp) ?_)
      rcases h.disk with hstands | ⟨hh, hledger, hvacant⟩
      · have hstands : Backend.file.Stands place ledger s.disk := hstands
        exact .inl (hstands.congr (Disk.content?_put_of_not_mem hl entry))
      · exact .inr ⟨hh, hledger, hvacant.congr (Disk.content?_put_of_not_mem hl entry)⟩

theorem completes {step : Step} (hp : Place.ofPath env.workingDirectory path = place)
    (h : Kept place ledger seen s) (hv : ledger.Supported)
    (hs : Session.step env ⟨.file, path⟩ step s = (answer, next)) :
    (⟨env, step, s.disk, answer⟩ : Occurrence).Completes := by
  obtain ⟨metadata, d, hstands, huse⟩ := (h.use_cases hp).resolve_left fun ⟨_, _, hn, _⟩ => hn hv
  cases step with
  | insert records =>
      obtain ⟨d', hinsert, _⟩ := Stands.exists_insert ⟨place, metadata, _⟩ hstands records
      have hdone : Store.insert records (.directory ⟨place, metadata, _⟩) d = _ := Action.map_of_ok _ hinsert
      rw [Session.step, huse, Session.act, Action.bind_of_ok hdone] at hs
      cases hs
      rfl
  | saveMetadata m =>
      obtain ⟨d', hsave, _⟩ := Stands.exists_saveMetadata ⟨place, metadata, _⟩ hstands m
      have hdone : Store.saveMetadata m (.directory ⟨place, metadata, _⟩) d = _ := Action.map_of_ok _ hsave
      rw [Session.step, huse, Session.act, Action.bind_of_ok hdone] at hs
      cases hs
      rfl
  | load input =>
      intro records hi
      obtain ⟨d, hstands, ⟨hn, _⟩ | ⟨_, hopen⟩⟩ := h.exists_open hp
      · exact absurd hv hn
      · subst hp
        obtain ⟨d', hload, _⟩ := Backend.Stands.exists_load env hi hopen hstands hv
        rw [Session.step, Session.describe, hload] at hs
        cases hs
        exact ⟨_, rfl⟩
  | _ => trivial

/-- A run records what completed, and a handle that stays open sees what was inserted through it. -/
theorem exists_run {workingDirectory : Location} {events : List Event}
    (hp : Place.ofPath workingDirectory path = place) (h : Kept place ledger seen s)
    (hl : ∀ e ∈ events, e.step.LeavesAlone (Backend.file.own place)) :
    let happened := Session.trace workingDirectory ⟨.file, path⟩ events s
    let last := (Session.run workingDirectory ⟨.file, path⟩ events s).2
    ∃ seen', Kept place (happened.foldl Occurrence.record ledger) seen' last ∧
      (s.handle ≠ none → (∀ e ∈ events, e.step ≠ .reopen) →
        last.handle ≠ none ∧ seen' = seen ++ happened.flatMap Occurrence.inserted) := by
  induction events generalizing ledger seen s with
  | nil => exact ⟨seen, h, fun hs _ => ⟨hs, (List.append_nil _).symm⟩⟩
  | cons e events ih =>
      let env : Surroundings := ⟨workingDirectory, e.now⟩
      let result := Session.step env ⟨.file, path⟩ e.step s
      have hs : Session.step env ⟨.file, path⟩ e.step s = (result.1, result.2) := rfl
      have hstep := h.step hp (hl e (List.mem_cons_self ..)) hs
      obtain ⟨seen', hlast, hopen⟩ := ih hstep fun f hf => hl f (List.mem_cons_of_mem _ hf)
      refine ⟨seen', hlast, fun hh hr => ?_⟩
      have hnext : result.2.handle ≠ none := Session.step_handle hh (hr e (List.mem_cons_self ..))
      obtain ⟨hhandle, hseen⟩ := hopen hnext fun f hf => hr f (List.mem_cons_of_mem _ hf)
      rw [seenBy_of_open hh (hr e (List.mem_cons_self ..)), List.append_assoc] at hseen
      exact ⟨hhandle, hseen⟩

/-- As long as only metadata of the known version is saved by hand, everything completes. -/
theorem completes_run {workingDirectory : Location} {events : List Event}
    (hp : Place.ofPath workingDirectory path = place) (h : Kept place ledger seen s)
    (hl : ∀ e ∈ events, e.step.LeavesAlone (Backend.file.own place)) (hv : ledger.Supported)
    (hm : ∀ e ∈ events, ∀ m, e.step = .saveMetadata m → m.schemaVersion = schemaVersion) :
    let happened := Session.trace workingDirectory ⟨.file, path⟩ events s
    (∀ o ∈ happened, o.Completes) ∧ (happened.foldl Occurrence.record ledger).Supported := by
  induction events generalizing ledger seen s with
  | nil => exact ⟨fun _ ho => absurd ho List.not_mem_nil, hv⟩
  | cons e events ih =>
      let env : Surroundings := ⟨workingDirectory, e.now⟩
      let result := Session.step env ⟨.file, path⟩ e.step s
      have hs : Session.step env ⟨.file, path⟩ e.step s = (result.1, result.2) := rfl
      have hnext := h.step hp (hl e (List.mem_cons_self ..)) hs
      obtain ⟨hrest, hlast⟩ := ih hnext (fun f hf => hl f (List.mem_cons_of_mem _ hf))
        (Occurrence.supported_record hv (hm e (List.mem_cons_self ..)))
        fun f hf => hm f (List.mem_cons_of_mem _ hf)
      exact ⟨List.forall_mem_cons.mpr ⟨h.completes hp hv hs, hrest⟩, hlast⟩

theorem exists_from_vacant {workingDirectory : Location} {start : Disk} {events : List Event}
    (hp : Place.ofPath workingDirectory path = place) (hv : Backend.file.Vacant place start)
    (hl : ∀ e ∈ events, e.step.LeavesAlone (Backend.file.own place)) :
    let happened := Session.trace workingDirectory ⟨.file, path⟩ events ⟨start, none⟩
    ∃ seen, Kept place ⟨happened.flatMap Occurrence.completed, happened.foldl Occurrence.saved none⟩ seen
      (Session.run workingDirectory ⟨.file, path⟩ events ⟨start, none⟩).2 := by
  intro happened
  obtain ⟨seen, hlast, _⟩ := (Kept.vacant hv).exists_run hp hl
  rw [Occurrence.foldl_record] at hlast
  exact ⟨seen, hlast⟩

/-- A handle that is opened and stays open has seen what was there, and what was inserted through it. -/
theorem exists_seen {workingDirectory : Location} {e : Event} {after : List Event}
    (hp : Place.ofPath workingDirectory path = place) (h : Kept place ledger seen s)
    (hl : ∀ f ∈ e :: after, f.step.LeavesAlone (Backend.file.own place))
    (hr : ∀ f ∈ after, f.step ≠ .reopen) (ho : s.Opens ⟨workingDirectory, e.now⟩ ⟨.file, path⟩ e.step) :
    ∃ metadata, (Session.run workingDirectory ⟨.file, path⟩ (e :: after) s).2.handle =
      some (.directory ⟨place, metadata, ledger.records ++
        (Session.trace workingDirectory ⟨.file, path⟩ (e :: after) s).flatMap Occurrence.inserted⟩) := by
  let env : Surroundings := ⟨workingDirectory, e.now⟩
  let result := Session.step env ⟨.file, path⟩ e.step s
  have hs : Session.step env ⟨.file, path⟩ e.step s = (result.1, result.2) := rfl
  have hstep := h.step hp (hl e (List.mem_cons_self ..)) hs
  -- The step that opens the handle sees all of the ledger; after it the run adds only what is inserted.
  rw [seenBy_of_opens ho.1] at hstep
  obtain ⟨seen', hlast, hopen⟩ := hstep.exists_run hp fun f hf => hl f (List.mem_cons_of_mem _ hf)
  obtain ⟨hhandle, rfl⟩ := hopen ho.2 hr
  obtain ⟨store, hstore⟩ := Option.ne_none_iff_exists'.mp hhandle
  obtain ⟨metadata, rfl⟩ := hlast.handle store hstore
  rw [List.append_assoc] at hstore
  exact ⟨metadata, hstore⟩

end Kept

end DirectoryStore

namespace Session

/-- Whatever the order of inserts, loads, saves and reopens, the file of records is read as the records of
all that completed, in the order in which they did, and the directory opens with these unless the metadata
saved last is of another version. A handle has seen the records that were there when it was opened, and
after them those that it inserted itself. Unless metadata of another version is saved by hand, every insert
and every load of a readable input completes. -/
theorem run_keeps_records {workingDirectory : Location} {start : Disk} {path : String} {events : List Event}
    (hv : Backend.file.Vacant (Place.ofPath workingDirectory path) start)
    (hl : ∀ e ∈ events, e.step.LeavesAlone (Backend.file.own (Place.ofPath workingDirectory path))) :
    let place := Place.ofPath workingDirectory path
    let last := (run workingDirectory ⟨.file, path⟩ events ⟨start, none⟩).2
    let happened := trace workingDirectory ⟨.file, path⟩ events ⟨start, none⟩
    let completed := happened.flatMap Occurrence.completed
    DirectoryStore.readRecords place last.disk = (.ok completed, last.disk) ∧
      (DirectoryStore.openAt place last.disk).1 =
        ((DirectoryStore.accepted (happened.foldl Occurrence.saved none)).map fun m =>
          ⟨place, m, completed⟩) ∧
      (∀ before e after, events = before ++ e :: after → (∀ f ∈ after, f.step ≠ .reopen) →
        let found := (run workingDirectory ⟨.file, path⟩ before ⟨start, none⟩).2
        found.Opens ⟨workingDirectory, e.now⟩ ⟨.file, path⟩ e.step →
          ∃ metadata, last.handle = some (.directory ⟨place, metadata,
            (trace workingDirectory ⟨.file, path⟩ before ⟨start, none⟩).flatMap Occurrence.completed ++
              (trace workingDirectory ⟨.file, path⟩ (e :: after) found).flatMap Occurrence.inserted⟩)) ∧
      ((∀ e ∈ events, ∀ m, e.step = .saveMetadata m → m.schemaVersion = schemaVersion) →
        (∀ o ∈ happened, o.Completes) ∧
          (DirectoryStore.openAt place last.disk).1 =
            .ok ⟨place, happened.foldl Occurrence.saved none, completed⟩) := by
  intro place last happened completed
  obtain ⟨_, hlast⟩ := DirectoryStore.Kept.exists_from_vacant rfl hv hl
  refine ⟨hlast.readRecords, hlast.openAt, ?_, ?_⟩
  · intro before e after hevents hr found hopens
    subst hevents
    obtain ⟨_, hfound⟩ := DirectoryStore.Kept.exists_from_vacant rfl hv fun f hf =>
      hl f (List.mem_append_left _ hf)
    have hseen := hfound.exists_seen rfl (fun f hf => hl f (List.mem_append_right _ hf)) hr hopens
    rw [← run_append] at hseen
    exact hseen
  · intro hm
    obtain ⟨hcompletes, hsupported⟩ :=
      (DirectoryStore.Kept.vacant hv).completes_run rfl hl (fun _ h => nomatch h) hm
    rw [Occurrence.foldl_record] at hsupported
    refine ⟨hcompletes, hlast.openAt.trans ?_⟩
    exact congrArg (Except.map _) (DirectoryStore.accepted_of_supported hsupported)

/-- An empty directory `f` beside a file `in` with the given text, and nothing else. -/
def emptyBeside (content : List Char) : Disk := ⟨[(["f"], .directory), (["in"], .text content)]⟩

theorem vacant_emptyBeside (content : List Char) :
    Backend.file.Vacant (Place.ofPath [] "f") (emptyBeside content) := by
  have hplace : Place.ofPath [] "f" = ⟨"f", ["f"], [[]]⟩ := by decide
  rw [hplace]
  refine ⟨by decide, ?_, ?_, by decide⟩
  · change ∀ l ∈ [[], ["f"]], _
    simp only [List.forall_mem_cons]
    exact ⟨.inr rfl, .inr rfl, nofun⟩
  · change ∀ l ∈ [["f", "records.jsonl"], ["f", "meta.json"], ["f", "meta.json.tmp"]], _
    simp only [List.forall_mem_cons]
    exact ⟨rfl, rfl, rfl, nofun⟩

theorem run_keeps_records_stale :
    let al : Record := .account ⟨"al", "", true⟩
    let bo : Record := .account ⟨"bo", "", true⟩
    let cy : Record := .account ⟨"cy", "", true⟩
    let events : List Event := [⟨0, .insert [al]⟩, ⟨0, .load "in"⟩, ⟨0, .insert [cy]⟩]
    let place := Place.ofPath [] "f"
    let last := (run [] ⟨.file, "f"⟩ events ⟨emptyBeside bo.line, none⟩).2
    DirectoryStore.readRecords place last.disk = (.ok [al, bo, cy], last.disk) ∧
      (DirectoryStore.openAt place last.disk).1.map DirectoryStore.records = .ok [al, bo, cy] ∧
      ∃ metadata, last.handle = some (.directory ⟨place, metadata, [al, cy]⟩) := by
  intro al bo cy events place last
  let start : Session := ⟨emptyBeside bo.line, none⟩
  let first : Event := ⟨0, .insert [al]⟩
  have hbrought : (trace [] ⟨.file, "f"⟩ events start).map (fun o => (o.completed, o.inserted)) =
      [([al], [al]), ([bo], []), ([cy], [cy])] := by cbv
  obtain ⟨hcompleted, hinserted⟩ := Occurrence.flatMap_of_map hbrought
  have hothers : ∀ e ∈ events, e.step.LeavesAlone (Backend.file.own place) := by
    simp only [events, List.forall_mem_cons]
    exact ⟨trivial, trivial, trivial, List.forall_mem_nil _⟩
  have hopens : start.Opens ⟨[], 0⟩ ⟨.file, "f"⟩ first.step := by
    obtain ⟨made, hopen, _⟩ := DirectoryStore.exists_openAt (vacant_emptyBeside bo.line)
    exact opens_of_openOrCreate rfl (Action.map_of_ok _ hopen) trivial
  have hkept : ∀ f ∈ events.tail, f.step ≠ .reopen := by
    simp [events]
  have hsupported : ∀ e ∈ events, ∀ m, e.step = .saveMetadata m → m.schemaVersion = schemaVersion := by
    simp [events]
  obtain ⟨hread, _, hseen, hall⟩ := run_keeps_records (vacant_emptyBeside bo.line) hothers
  have hopen := congrArg (Except.map DirectoryStore.records) (hall hsupported).2
  obtain ⟨metadata, hhandle⟩ := hseen [] first events.tail rfl hkept hopens
  refine ⟨hread.trans ?_, hopen.trans ?_, metadata, hhandle.trans ?_⟩
  · exact congrArg (fun records => (Except.ok records, last.disk)) hcompleted
  · exact congrArg Except.ok hcompleted
  · exact congrArg (fun records => some (Store.directory ⟨place, metadata, records⟩)) hinserted

/-- A directory is refused when metadata of another version was saved last. -/
theorem openAt_refused_after_save :
    let al : Record := .account ⟨"al", "", true⟩
    let events : List Event := [⟨0, .insert [al]⟩, ⟨0, .saveMetadata ⟨"2", "x", 0, 0⟩⟩]
    let place := Place.ofPath [] "f"
    let result := run [] ⟨.file, "f"⟩ events ⟨emptyBeside [], none⟩
    result.1 = [.inserted 1, .saved] ∧
      (DirectoryStore.openAt place result.2.disk).1 = .error (.unsupportedSchema "2") := by
  intro al events place result
  let config : StoreConfig := ⟨.file, "f"⟩
  obtain ⟨made, hopen, hmade, _⟩ := DirectoryStore.exists_openAt (vacant_emptyBeside [])
  obtain ⟨grown, hinsert, hgrown, _⟩ := hmade.exists_insert ⟨place, none, []⟩ [al]
  obtain ⟨last, hsave, hlast, _⟩ := hgrown.exists_saveMetadata ⟨place, none, [al]⟩ ⟨"2", "x", 0, 0⟩
  have hfirst : step ⟨[], 0⟩ config (.insert [al]) ⟨emptyBeside [], none⟩ =
      (.inserted 1, ⟨grown, some (.directory ⟨place, none, [al]⟩)⟩) := by
    have hopened : Store.openOrCreate ⟨[], 0⟩ config (emptyBeside []) =
        (.ok (.directory ⟨place, none, []⟩), made) := Action.map_of_ok _ hopen
    have hinserted : Store.insert [al] (.directory ⟨place, none, []⟩) made =
        (.ok (.directory ⟨place, none, [al]⟩), grown) := Action.map_of_ok _ hinsert
    rw [step, use]
    simp only [hopened]
    rw [act, Action.bind_of_ok hinserted]
    rfl
  have hsecond : step ⟨[], 0⟩ config (.saveMetadata ⟨"2", "x", 0, 0⟩)
      ⟨grown, some (.directory ⟨place, none, [al]⟩)⟩ =
        (.saved, ⟨last, some (.directory ⟨place, some ⟨"2", "x", 0, 0⟩, [al]⟩)⟩) := by
    have hsaved : Store.saveMetadata ⟨"2", "x", 0, 0⟩ (.directory ⟨place, none, [al]⟩) grown =
        (.ok (.directory ⟨place, some ⟨"2", "x", 0, 0⟩, [al]⟩), last) := Action.map_of_ok _ hsave
    rw [step, use]
    dsimp only
    rw [act, Action.bind_of_ok hsaved]
    rfl
  have hrun : result = ([.inserted 1, .saved],
      ⟨last, some (.directory ⟨place, some ⟨"2", "x", 0, 0⟩, [al]⟩)⟩) := by
    change run [] config [_, _] _ = _
    simp only [run, hfirst, hsecond]
  rw [hrun]
  refine ⟨rfl, ?_⟩
  rw [hlast.openAt]
  rfl

end Session

end RecordSearch

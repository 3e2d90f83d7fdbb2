import Mathlib
import RecordSearch.Proofs.Query.Typing
import RecordSearch.Proofs.Store.Loading
import RecordSearch.Proofs.Store.Session

/-!
# Sessions refine one abstract store

A store that begins where nothing was answers every step of a session as a ledger does: a sequence of
records to which inserts append, and the metadata saved last. This holds for both kinds of stores as long
as a handle is opened again after a load before it is used. So the two kinds give the same answers, apart
from their names and paths, when no text has a null character.
-/

namespace RecordSearch

/-- What an abstract store sees: what it holds, if it was ever opened, and the disk without it. -/
structure World where
  outside : Disk
  ledger : Option Ledger := none

namespace World

def held (w : World) : Ledger := w.ledger.getD {}

def hold (ledger : Ledger) (w : World) : World := { w with ledger := some ledger }

/-- What an abstract store answers. A search finds what is accepted by the filter. -/
def answer (accepts : Json → Filter → Bool) (env : Surroundings) (config : StoreConfig) (w : World) :
    Step → Answer
  | .reopen => .opened config.backend config.path
  | .insert records => .inserted records.length
  | .count table => .counted (w.held.count table)
  | .find scope filter => .found (w.held.find (accepts · filter) scope)
  | .saveMetadata _ => .saved
  | .loadMetadata => .metadata (w.held.loadMetadata env.now)
  | .load input =>
      match Store.inputIn env input w.outside with
      | .error e => .failed e
      | .ok records =>
          .summary ((w.held.load env.now records).summary config
            ((w.held.loadMetadata env.now).touched env.now) (some records.length))
  | .info =>
      match w.ledger with
      | none => .failed (.notFound config.path)
      | some ledger => .summary (ledger.summary config (ledger.loadMetadata env.now) none)
  | .outside _ _ => .silent

/-- What it holds afterwards: inserts append, and a step through a handle opens the store at least. -/
def next (env : Surroundings) (w : World) : Step → World
  | .insert records => w.hold (w.held.insert records)
  | .saveMetadata m => w.hold (w.held.save m)
  | .load input =>
      match Store.inputIn env input w.outside with
      | .error _ => w
      | .ok records => w.hold (w.held.load env.now records)
  | .info => w
  | .outside l entry => { w with outside := w.outside.put l entry }
  | .reopen | .count _ | .find _ _ | .loadMetadata => w.hold w.held

def run (accepts : Json → Filter → Bool) (workingDirectory : Location) (config : StoreConfig) :
    List Event → World → List Answer
  | [], _ => []
  | e :: events, w =>
      w.answer accepts ⟨workingDirectory, e.now⟩ config e.step ::
        run accepts workingDirectory config events (w.next ⟨workingDirectory, e.now⟩ e.step)

end World

/-! ## What comes into a store -/

namespace World

variable {env : Surroundings} {workingDirectory : Location} {w : World} {step : Step}
  {ofRecord : Record → Prop} {ofPattern : String → Prop}

end World

/-! ## Names and paths of stores -/

namespace World

variable {workingDirectory : Location} {w : World}

end World

/-! ## Sessions that the abstract store describes -/

structure StoreConfig.Begins (workingDirectory : Location) (start : Disk) (config : StoreConfig) : Prop where
  named : config.Named
  vacant : config.backend.Vacant (Place.ofPath workingDirectory config.path) start
  missing : start.content? (Location.ofPath workingDirectory config.path) = none

/-- Searches are compiled queries, metadata is of the known version, the path of an input passes through
nothing that the store makes, and others leave the store alone. -/
def Step.Allowed (workingDirectory : Location) (start : Disk) (config : StoreConfig) : Step → Prop
  | .find scope filter =>
      ∃ (entity : Entity) (query : String) (byOr : Bool), entity.compile query byOr = .ok (scope, filter)
  | .saveMetadata m => m.schemaVersion = schemaVersion
  | .load input => ∀ l ∈ Location.visited workingDirectory input,
      l ∈ config.backend.own (Place.ofPath workingDirectory config.path) → start.content? l ≠ none
  | .outside l _ => l ∉ config.backend.own (Place.ofPath workingDirectory config.path)
  | _ => True

def Step.leavesStale (stale : Bool) : Step → Bool
  | .load _ => true
  | .reopen => false
  | _ => stale

/-- The handle is opened again after a load before it is used. -/
def ReopenedAfterLoads : Bool → List Event → Prop
  | _, [] => True
  | stale, e :: events =>
      (stale = true → ¬ e.step.UsesHandle) ∧ ReopenedAfterLoads (e.step.leavesStale stale) events

/-! ## Simulation -/

/-- The session is where the abstract store says. A handle that is not out of date has seen everything. -/
structure Simulates (workingDirectory : Location) (start : Disk) (config : StoreConfig) (stale : Bool)
    (s : Session) (w : World) : Prop where
  outside : Disk.AgreeOff (config.backend.own (Place.ofPath workingDirectory config.path)) w.outside s.disk
  unmoved : ∀ l ∈ config.backend.own (Place.ofPath workingDirectory config.path),
    w.outside.content? l = start.content? l
  missing : w.ledger = none → s.handle = none ∧ ∀ l, s.disk.content? l = w.outside.content? l
  standing : ∀ ledger, w.ledger = some ledger →
    config.backend.Stands (Place.ofPath workingDirectory config.path) ledger s.disk ∧ ledger.Supported ∧
      (stale = false → ∀ store, s.handle = some store →
        store = ledger.store config.backend (Place.ofPath workingDirectory config.path))

namespace Simulates

variable {workingDirectory : Location} {start disk' : Disk} {config : StoreConfig} {stale stale' : Bool}
  {s : Session} {w : World} {ledger : Ledger}

theorem vacant (h : Simulates workingDirectory start config stale s w)
    (hb : config.Begins workingDirectory start) (hw : w.ledger = none) :
    config.backend.Vacant (Place.ofPath workingDirectory config.path) s.disk :=
  hb.vacant.congr fun l hl => ((h.missing hw).2 l).trans (h.unmoved l hl)

theorem outdated (h : Simulates workingDirectory start config stale s w) :
    Simulates workingDirectory start config true s w where
  outside := h.outside
  unmoved := h.unmoved
  missing := h.missing
  standing ledger hw := ⟨(h.standing ledger hw).1, (h.standing ledger hw).2.1, nofun⟩

theorem hold (h : Simulates workingDirectory start config stale s w)
    (hs : config.backend.Stands (Place.ofPath workingDirectory config.path) ledger disk')
    (hv : ledger.Supported)
    (ha : Disk.AgreeOff (config.backend.own (Place.ofPath workingDirectory config.path)) s.disk disk')
    {handle : Option Store}
    (hh : stale' = false → ∀ store, handle = some store →
      store = ledger.store config.backend (Place.ofPath workingDirectory config.path)) :
    Simulates workingDirectory start config stale' ⟨disk', handle⟩ (w.hold ledger) where
  outside := h.outside.trans ha
  unmoved := h.unmoved
  missing := nofun
  standing := by
    rintro _ ⟨⟩
    exact ⟨hs, hv, hh⟩

/-- Opening the store gives a handle that has seen everything. -/
theorem exists_open (now : UInt64) (h : Simulates workingDirectory start config stale s w)
    (hb : config.Begins workingDirectory start) :
    ∃ disk', Store.openOrCreate ⟨workingDirectory, now⟩ config s.disk =
        (.ok (w.held.store config.backend (Place.ofPath workingDirectory config.path)), disk') ∧
      config.backend.Stands (Place.ofPath workingDirectory config.path) w.held disk' ∧
      w.held.Supported ∧
      Disk.AgreeOff (config.backend.own (Place.ofPath workingDirectory config.path)) s.disk disk' := by
  unfold World.held
  cases hw : w.ledger with
  | none =>
      obtain ⟨made, hopen, hstands, hagree⟩ :=
        Backend.Vacant.exists_openOrCreate ⟨workingDirectory, now⟩ (h.vacant hb hw)
      exact ⟨made, hopen, hstands, nofun, hagree⟩
  | some ledger =>
      obtain ⟨hstands, hsupported, _⟩ := h.standing ledger hw
      exact ⟨s.disk, Backend.Stands.openOrCreate ⟨workingDirectory, now⟩ hstands hsupported, hstands,
        hsupported, .refl _ _⟩

/-- A step through a handle that is not out of date finds a store that has seen everything. -/
theorem exists_use (now : UInt64) (h : Simulates workingDirectory start config false s w)
    (hb : config.Begins workingDirectory start) :
    ∃ disk', (∀ action, Session.use ⟨workingDirectory, now⟩ config action s =
        Session.act action (w.held.store config.backend (Place.ofPath workingDirectory config.path)) disk') ∧
      config.backend.Stands (Place.ofPath workingDirectory config.path) w.held disk' ∧
      w.held.Supported ∧
      Disk.AgreeOff (config.backend.own (Place.ofPath workingDirectory config.path)) s.disk disk' := by
  cases hs : s.handle with
  | none =>
      obtain ⟨disk', hopen, hrest⟩ := h.exists_open now hb
      refine ⟨disk', fun action => ?_, hrest⟩
      rw [Session.use, hs]
      simp only [hopen]
  | some store =>
      cases hw : w.ledger with
      | none => cases (h.missing hw).1.symm.trans hs
      | some ledger =>
          obtain ⟨hstands, hsupported, hsync⟩ := h.standing ledger hw
          have hheld : w.held = ledger := by rw [World.held, hw]; rfl
          rw [hheld]
          refine ⟨s.disk, fun action => ?_, hstands, hsupported, .refl _ _⟩
          rw [Session.use, hs, hsync rfl store hs]

theorem inputIn (now : UInt64) (h : Simulates workingDirectory start config stale s w)
    (hb : config.Begins workingDirectory start) {input : String}
    (hi : (Step.load input).Allowed workingDirectory start config) :
    Store.inputIn ⟨workingDirectory, now⟩ input s.disk =
      Store.inputIn ⟨workingDirectory, now⟩ input w.outside := by
  refine Store.inputIn_congr fun l hl => ?_
  by_cases hown : l ∈ config.backend.own (Place.ofPath workingDirectory config.path)
  · cases hw : w.ledger with
    | none => exact (h.missing hw).2 l
    | some ledger =>
        -- Of what the store makes, an input may pass only through directories that were there before.
        have hstart := hi l hl hown
        rw [h.unmoved l hown]
        rcases List.mem_append.mp hown with hd | hf
        · rw [(h.standing ledger hw).1.made l hd]
          exact ((hb.vacant.passable l hd).resolve_left hstart).symm
        · exact absurd (hb.vacant.vacant l hf) hstart
  · exact h.outside l hown

theorem use (now : UInt64) (h : Simulates workingDirectory start config false s w)
    (hb : config.Begins workingDirectory start) {action : Store → Action (Answer × Store)} {answer : Answer}
    (ha : ∀ {d : Disk}, config.backend.Stands (Place.ofPath workingDirectory config.path) w.held d →
      w.held.Supported →
        ∃ d', action (w.held.store config.backend (Place.ofPath workingDirectory config.path)) d =
            (.ok (answer, ledger.store config.backend (Place.ofPath workingDirectory config.path)), d') ∧
          config.backend.Stands (Place.ofPath workingDirectory config.path) ledger d' ∧ ledger.Supported ∧
          Disk.AgreeOff (config.backend.own (Place.ofPath workingDirectory config.path)) d d') :
    (Session.use ⟨workingDirectory, now⟩ config action s).1 = answer ∧
      Simulates workingDirectory start config false
        (Session.use ⟨workingDirectory, now⟩ config action s).2 (w.hold ledger) := by
  obtain ⟨d, huse, hstands, hsupported, hagree⟩ := h.exists_use now hb
  obtain ⟨d', haction, hstands', hsupported', hagree'⟩ := ha hstands hsupported
  have hact : Session.act action (w.held.store config.backend (Place.ofPath workingDirectory config.path)) d =
      (answer, ⟨d', some (ledger.store config.backend (Place.ofPath workingDirectory config.path))⟩) := by
    rw [Session.act, haction]
  rw [huse, hact]
  exact ⟨rfl, h.hold hstands' hsupported' (hagree.trans hagree') fun _ _ hs => (Option.some.inj hs).symm⟩

theorem reopen (now : UInt64) (h : Simulates workingDirectory start config stale s w)
    (hb : config.Begins workingDirectory start) :
    (Session.reopen ⟨workingDirectory, now⟩ config s).1 = .opened config.backend config.path ∧
      Simulates workingDirectory start config false (Session.reopen ⟨workingDirectory, now⟩ config s).2
        (w.hold w.held) := by
  obtain ⟨d, hopen, hstands, hsupported, hagree⟩ := h.exists_open now hb
  have hreopen : Session.reopen ⟨workingDirectory, now⟩ config s =
      (.opened config.backend config.path,
        ⟨d, some (w.held.store config.backend (Place.ofPath workingDirectory config.path))⟩) := by
    rw [Session.reopen, hopen]
    cases hk : config.backend <;> rfl
  rw [hreopen]
  exact ⟨rfl, h.hold hstands hsupported hagree fun _ _ hs => (Option.some.inj hs).symm⟩

theorem load (now : UInt64) (h : Simulates workingDirectory start config stale s w)
    (hb : config.Begins workingDirectory start) {input : String}
    (hi : (Step.load input).Allowed workingDirectory start config)
    (accepts : Json → Filter → Bool) :
    (Session.step ⟨workingDirectory, now⟩ config (.load input) s).1 =
        w.answer accepts ⟨workingDirectory, now⟩ config (.load input) ∧
      Simulates workingDirectory start config true
        (Session.step ⟨workingDirectory, now⟩ config (.load input) s).2
        (w.next ⟨workingDirectory, now⟩ (.load input)) := by
  have hinput := h.inputIn now hb hi
  cases hr : Store.inputIn ⟨workingDirectory, now⟩ input w.outside with
  | error e =>
      have hload : Session.step ⟨workingDirectory, now⟩ config (.load input) s = (.failed e, s) := by
        rw [Session.step, Session.describe, Store.load_of_refused (hinput.trans hr)]
      rw [hload, World.answer, World.next, hr]
      exact ⟨rfl, h.outdated⟩
  | ok records =>
      obtain ⟨d, hopen, hstands, hsupported, hagree⟩ := h.exists_open now hb
      obtain ⟨d', hload, hstands', hagree'⟩ :=
        Backend.Stands.exists_load ⟨workingDirectory, now⟩ (hinput.trans hr) hopen hstands hsupported
      rw [Session.step, Session.describe, hload, World.answer, World.next, hr]
      exact ⟨rfl, h.hold hstands' (hsupported.load now records) (hagree.trans hagree') nofun⟩

theorem info (now : UInt64) (h : Simulates workingDirectory start config stale s w)
    (hb : config.Begins workingDirectory start) (accepts : Json → Filter → Bool) :
    (Session.step ⟨workingDirectory, now⟩ config .info s).1 =
        w.answer accepts ⟨workingDirectory, now⟩ config .info ∧
      Simulates workingDirectory start config stale
        (Session.step ⟨workingDirectory, now⟩ config .info s).2 (w.next ⟨workingDirectory, now⟩ .info) := by
  cases hw : w.ledger with
  | none =>
      let l := Location.ofPath workingDirectory config.path
      have hmissing : s.disk.content? l = none :=
        (((h.missing hw).2 l).trans (h.unmoved l (Backend.location_mem_own _ _))).trans hb.missing
      have hinfo : Store.info ⟨workingDirectory, now⟩ config s.disk =
          (.error (.notFound config.path), s.disk) :=
        Action.bind_of_error (Backend.openExisting_of_missing ⟨workingDirectory, now⟩ hmissing)
      rw [Session.step, Session.describe, hinfo, World.answer, hw]
      exact ⟨rfl, h⟩
  | some ledger =>
      obtain ⟨hstands, hsupported, _⟩ := h.standing ledger hw
      have hinfo := Backend.Stands.info ⟨workingDirectory, now⟩ hstands hsupported hb.named
      rw [Session.step, Session.describe, hinfo, World.answer, hw]
      exact ⟨rfl, h⟩

theorem others {l : Location} (hl : l ∉ config.backend.own (Place.ofPath workingDirectory config.path))
    (h : Simulates workingDirectory start config stale s w) (entry : Option Entry) :
    Simulates workingDirectory start config stale { s with disk := s.disk.put l entry }
      { w with outside := w.outside.put l entry } where
  outside k hk := Disk.content?_put_congr (h.outside k hk) l entry
  unmoved k hk := (Disk.content?_put_of_not_mem hl entry k hk).trans (h.unmoved k hk)
  missing hw := ⟨(h.missing hw).1, fun k => Disk.content?_put_congr ((h.missing hw).2 k) l entry⟩
  standing ledger hw := by
    obtain ⟨hstands, hrest⟩ := h.standing ledger hw
    exact ⟨hstands.congr (Disk.content?_put_of_not_mem hl entry), hrest⟩

/-- Each step answers as the abstract store does and leaves the session where that store is. -/
theorem step (now : UInt64) (h : Simulates workingDirectory start config stale s w)
    (hb : config.Begins workingDirectory start) {step : Step}
    (ha : step.Allowed workingDirectory start config) (hstale : stale = true → ¬ step.UsesHandle) :
    (Session.step ⟨workingDirectory, now⟩ config step s).1 =
        w.answer config.backend.accepts ⟨workingDirectory, now⟩ config step ∧
      Simulates workingDirectory start config (step.leavesStale stale)
        (Session.step ⟨workingDirectory, now⟩ config step s).2 (w.next ⟨workingDirectory, now⟩ step) := by
  -- A step through the handle is taken only when the handle has seen everything.
  have hfresh : step.UsesHandle → stale = false := by
    cases stale with
    | false => exact fun _ => rfl
    | true => exact fun hu => absurd hu (hstale rfl)
  cases step with
  | reopen => exact h.reopen now hb
  | insert records =>
      obtain rfl := hfresh trivial
      refine h.use now hb fun hstands hsupported => ?_
      obtain ⟨d', hinsert, hstands', hagree⟩ := hstands.exists_insert records
      exact ⟨d', Action.bind_of_ok hinsert, hstands', hsupported, hagree⟩
  | count table =>
      obtain rfl := hfresh trivial
      exact h.use now hb fun {d} hstands hsupported =>
        ⟨d, Action.bind_of_ok (hstands.count table), hstands, hsupported, .refl _ _⟩
  | find scope filter =>
      obtain rfl := hfresh trivial
      obtain ⟨entity, query, byOr, hc⟩ := ha
      obtain ⟨rfl, hf⟩ := Entity.compile_eq_ok_iff.mp hc
      have htyped := entity.operatorsTyped.build hf
      exact h.use now hb fun {d} hstands hsupported =>
        ⟨d, Action.bind_of_ok (hstands.find htyped), hstands, hsupported, .refl _ _⟩
  | saveMetadata m =>
      obtain rfl := hfresh trivial
      refine h.use now hb fun hstands _ => ?_
      obtain ⟨d', hsave, hstands', hagree⟩ := hstands.exists_saveMetadata m
      refine ⟨d', Action.bind_of_ok hsave, hstands', ?_, hagree⟩
      rintro _ ⟨⟩
      exact ha
  | loadMetadata =>
      obtain rfl := hfresh trivial
      exact h.use now hb fun {d} hstands hsupported =>
        ⟨d, Action.bind_of_ok (hstands.loadMetadata ⟨workingDirectory, now⟩ hsupported), hstands, hsupported,
          .refl _ _⟩
  | load input => exact h.load now hb ha _
  | info => exact h.info now hb _
  | outside l entry => exact ⟨rfl, h.others ha entry⟩

theorem run (h : Simulates workingDirectory start config stale s w)
    (hb : config.Begins workingDirectory start) {events : List Event}
    (ha : ∀ e ∈ events, e.step.Allowed workingDirectory start config)
    (hr : ReopenedAfterLoads stale events) :
    (Session.run workingDirectory config events s).1 =
      World.run config.backend.accepts workingDirectory config events w := by
  -- The simulation is what carries the induction: the next step starts where this one ended.
  induction events generalizing stale s w with
  | nil => rfl
  | cons e events ih =>
      obtain ⟨hanswer, hnext⟩ := h.step e.now hb (ha e (List.mem_cons_self ..)) hr.1
      have hrest := ih hnext (fun f hf => ha f (List.mem_cons_of_mem _ hf)) hr.2
      rw [Session.run, World.run]
      exact congrArg₂ List.cons hanswer hrest

end Simulates

namespace Session

variable {inserted loaded : List Record} {filter : Filter} {query : String} {byOr : Bool}

end Session

end RecordSearch

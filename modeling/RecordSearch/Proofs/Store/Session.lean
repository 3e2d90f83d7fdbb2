import RecordSearch.Proofs.Store.Disk
import RecordSearch.Store.Basic

/-!
# Sessions with a store

What a program does with one store, step after step: it opens a handle and uses it, while loads and
descriptions open the same store on their own, and others may change files elsewhere. The answers are
what the program gets to see.
-/

namespace RecordSearch

inductive Step where
  /-- Drops the handle and opens the store again. -/
  | reopen
  | insert (records : List Record)
  | count (table : RecordTable)
  | find (scope : Scope) (filter : Filter)
  | saveMetadata (m : StoreMeta)
  | loadMetadata
  /-- Loads the records of a file, with a handle of its own. -/
  | load (input : String)
  | info
  /-- Someone else puts something at a location, or takes away what was there. -/
  | outside (l : Location) (entry : Option Entry)
  deriving Repr

/-- A step at a time, in seconds since the epoch. -/
structure Event where
  now : UInt64
  step : Step
  deriving Repr

inductive Answer where
  | opened (backend : Backend) (path : String)
  | inserted (count : Nat)
  | counted (count : Nat)
  | found (records : List Record)
  | saved
  | metadata (m : StoreMeta)
  | summary (s : StoreSummary)
  | failed (e : StoreError)
  | silent
  deriving DecidableEq, Repr

/-- A step that was taken: the disk that it found, and what it was answered. -/
structure Occurrence where
  env : Surroundings
  step : Step
  disk : Disk
  answer : Answer

/-- The disk and the handle, if one is open. -/
structure Session where
  disk : Disk
  handle : Option Store := none

namespace Step

def UsesHandle : Step → Prop
  | .insert _ | .count _ | .find _ _ | .saveMetadata _ | .loadMetadata => True
  | _ => False

end Step

namespace Session

variable (env : Surroundings) (config : StoreConfig)

def reopen (s : Session) : Answer × Session :=
  match Store.openOrCreate env config s.disk with
  | (.ok store, disk) => (.opened store.backend store.path, ⟨disk, some store⟩)
  | (.error e, disk) => (.failed e, ⟨disk, none⟩)

/-- An action with an open store. A failure leaves the handle as it was. -/
def act (action : Store → Action (Answer × Store)) (store : Store) (disk : Disk) : Answer × Session :=
  match action store disk with
  | (.ok (answer, store), disk) => (answer, ⟨disk, some store⟩)
  | (.error e, disk) => (.failed e, ⟨disk, some store⟩)

/-- An action with the handle, which is opened first if there is none. -/
def use (action : Store → Action (Answer × Store)) (s : Session) : Answer × Session :=
  match s.handle with
  | some store => act action store s.disk
  | none =>
      match Store.openOrCreate env config s.disk with
      | (.ok store, disk) => act action store disk
      | (.error e, disk) => (.failed e, ⟨disk, none⟩)

/-- An action that opens the store on its own. -/
def describe (action : Action StoreSummary) (s : Session) : Answer × Session :=
  match action s.disk with
  | (.ok summary, disk) => (.summary summary, { s with disk := disk })
  | (.error e, disk) => (.failed e, { s with disk := disk })

def step : Step → Session → Answer × Session
  | .reopen => reopen env config
  | .insert records => use env config fun store => do
      pure (.inserted records.length, ← store.insert records)
  | .count table => use env config fun store => do
      pure (.counted (← store.count table), store)
  | .find scope filter => use env config fun store => do
      pure (.found (← store.find scope filter), store)
  | .saveMetadata m => use env config fun store => do
      pure (.saved, ← store.saveMetadata m)
  | .loadMetadata => use env config fun store => do
      pure (.metadata (← store.loadMetadata env), store)
  | .load input => describe (Store.load env config input)
  | .info => describe (Store.info env config)
  | .outside l entry => fun s => (.silent, { s with disk := s.disk.put l entry })

def run (workingDirectory : Location) (config : StoreConfig) : List Event → Session → List Answer × Session
  | [], s => ([], s)
  | e :: events, s =>
      let (answer, next) := step ⟨workingDirectory, e.now⟩ config e.step s
      let (answers, last) := run workingDirectory config events next
      (answer :: answers, last)

/-- What happened in a run, step after step. -/
def trace (workingDirectory : Location) (config : StoreConfig) : List Event → Session → List Occurrence
  | [], _ => []
  | e :: events, s =>
      let (answer, next) := step ⟨workingDirectory, e.now⟩ config e.step s
      ⟨⟨workingDirectory, e.now⟩, e.step, s.disk, answer⟩ :: trace workingDirectory config events next

/-- A handle is open after the step that was not open before. -/
def Opens (s : Session) (step : Step) : Prop :=
  (step = .reopen ∨ s.handle = none) ∧ (Session.step env config step s).2.handle ≠ none

variable {workingDirectory : Location} {env : Surroundings} {config : StoreConfig}

theorem act_handle (action : Store → Action (Answer × Store)) (store : Store) (disk : Disk) :
    (act action store disk).2.handle ≠ none := by
  rw [act]
  split <;> nofun

theorem use_handle {s : Session} (hs : s.handle ≠ none) (action : Store → Action (Answer × Store)) :
    (use env config action s).2.handle ≠ none := by
  rw [use]
  split
  · exact act_handle action _ _
  · next h => exact absurd h hs

theorem describe_handle (action : Action StoreSummary) (s : Session) :
    (describe action s).2.handle = s.handle := by
  rw [describe]
  split <;> rfl

theorem describe_disk (action : Action StoreSummary) (s : Session) :
    (describe action s).2.disk = (action s.disk).2 := by
  rw [describe]
  split <;> next h => rw [h]

/-- An open handle stays open until it is dropped for another one. -/
theorem step_handle {s : Session} {step : Step} (hs : s.handle ≠ none) (hr : step ≠ .reopen) :
    (Session.step env config step s).2.handle ≠ none := by
  cases step with
  | reopen => exact absurd rfl hr
  | load input => exact (describe_handle _ s).symm ▸ hs
  | info => exact (describe_handle _ s).symm ▸ hs
  | outside l entry => exact hs
  | _ => exact use_handle hs _

theorem opens_of_openOrCreate {s : Session} {step : Step} {store : Store} {disk : Disk} (hs : s.handle = none)
    (ho : Store.openOrCreate env config s.disk = (.ok store, disk)) (hu : step.UsesHandle) :
    s.Opens env config step := by
  have huse (action : Store → Action (Answer × Store)) : (use env config action s).2.handle ≠ none := by
    rw [use, hs]
    simp only [ho]
    exact act_handle action store disk
  refine ⟨.inr hs, ?_⟩
  cases step with
  | reopen | load _ | info | outside _ _ => exact hu.elim
  | _ => exact huse _

theorem run_append (events later : List Event) (s : Session) :
    (run workingDirectory config (events ++ later) s).2 =
      (run workingDirectory config later (run workingDirectory config events s).2).2 := by
  induction events generalizing s with
  | nil => rfl
  | cons e events ih => exact ih _

end Session

end RecordSearch

import RecordSearch.Proofs.Store.Loading

/-!
# Why a search fails

Opening a store that must be there says that it is missing just if its path leads nowhere. Whatever else goes
wrong with opening a store and searching it is another error.
-/

namespace RecordSearch

/-! ## Errors of actions -/

namespace Action

variable {α β : Type} {P : StoreError → Prop} {x : Action α} {f : α → Action β}

/-- Whatever error the action ends with has the property. -/
def FailsOnly (P : StoreError → Prop) (x : Action α) : Prop :=
  ∀ disk e disk', x disk = (.error e, disk') → P e

namespace FailsOnly

theorem pure (a : α) : FailsOnly P (Pure.pure a : Action α) := nofun

theorem throw {e : StoreError} (h : P e) : FailsOnly P (MonadExcept.throw e : Action α) := by
  rintro disk _ disk' ⟨⟩
  exact h

theorem bind (hx : FailsOnly P x) (hf : ∀ a, FailsOnly P (f a)) : FailsOnly P (x >>= f) := by
  intro disk e disk' h
  rcases bind_eq_error h with hx' | ⟨a, d, _, ha⟩
  · exact hx disk e disk' hx'
  · exact hf a d e disk' ha

theorem map (hx : FailsOnly P x) (g : α → β) : FailsOnly P (g <$> x) := by
  intro disk e disk' h
  exact hx disk e disk' (map_eq_error h)

theorem get_bind {g : Disk → Action β} (hg : ∀ disk, FailsOnly P (g disk)) : FailsOnly P (get >>= g) :=
  bind nofun hg

theorem modify (g : Disk → Disk) : FailsOnly P (MonadState.modifyGet fun disk => ((), g disk)) := nofun

theorem ofExcept {r : Except StoreError α} (h : ∀ e, r = .error e → P e) :
    FailsOnly P (Action.ofExcept r) := by
  cases r with
  | error e => exact throw (h e rfl)
  | ok a => exact pure a

theorem change (h : P .fileSystem) (g : Disk → Option Disk) : FailsOnly P (Action.change g) := by
  refine get_bind fun disk => ?_
  cases g disk with
  | none => exact throw h
  | some made => nofun

theorem readLines (h : P .fileSystem) (l : Location) : FailsOnly P (Action.readLines l) := by
  refine get_bind fun disk => ?_
  split
  · exact pure _
  · exact throw h

end FailsOnly

end Action

open RecordSearch.Action (FailsOnly)

/-! ## Missing stores -/

namespace StoreError

/-- The error does not say that a store is missing. -/
def Present : StoreError → Prop
  | .notFound _ => False
  | _ => True

/-- What the message about a missing store begins with. -/
def missingStore : String := "store not found at "

theorem missingStore_not_prefix {s t : List Char} (hs : s.take 2 ≠ "st".toList) (hl : 2 ≤ s.length) :
    ¬ missingStore.toList <+: s ++ t := by
  rintro ⟨rest, h⟩
  have htake := congrArg (List.take 2) h
  rw [List.take_append_of_le_length hl, List.take_append_of_le_length (by decide)] at htake
  exact hs htake.symm

/-- No message begins like the one about a missing store but that one. -/
theorem missingStore_prefix_iff (e : StoreError) :
    missingStore.toList <+: (e.message?.getD "").toList ↔ ¬ e.Present := by
  cases e with
  | notFound path => exact iff_of_true ⟨path.toList, String.toList_append.symm⟩ id
  | fileSystem | database => exact iff_of_false (by decide) (not_not_intro trivial)
  | _ =>
      refine iff_of_false ?_ (not_not_intro trivial)
      simp only [message?, Option.getD_some, String.toList_append, List.append_assoc]
      exact missingStore_not_prefix (by decide) (by decide)

end StoreError

/-! ## Opening and searching -/

theorem StoreMeta.present_of_supported {m : StoreMeta} {e : StoreError} (h : m.supported = .error e) :
    e.Present := by
  unfold supported at h
  split at h
  · cases h
  · cases h; trivial

namespace DirectoryStore

theorem readMetadata_present (place : Place) : FailsOnly StoreError.Present (readMetadata place) := by
  refine .get_bind fun disk => ?_
  split
  · exact .pure none
  · split
    · exact .map (.ofExcept fun e he => StoreMeta.present_of_supported he) some
    · exact .throw trivial
  · exact .throw trivial

theorem readRecords_present (place : Place) : FailsOnly StoreError.Present (readRecords place) := by
  refine .get_bind fun disk => ?_
  split
  · refine .bind (.readLines trivial _) fun lines => ?_
    split
    · exact .pure _
    · exact .throw trivial
  · exact .pure []

theorem openAt_present (place : Place) : FailsOnly StoreError.Present (openAt place) :=
  .bind (.change trivial _) fun _ => .bind (readMetadata_present place) fun _ =>
    .bind (readRecords_present place) fun _ => .pure _

end DirectoryStore

namespace DatabaseStore

theorem openAt_present (place : Place) : FailsOnly StoreError.Present (openAt place) := by
  rw [openAt]
  split
  · exact .pure _
  · rw [openFile]
    refine .bind (.change trivial _) fun _ => .get_bind fun disk => ?_
    split
    · exact .pure _
    · exact .bind (.modify _) fun _ => .pure _
    · exact .bind (.modify _) fun _ => .pure _
    · exact .throw trivial

theorem read_present (store : DatabaseStore) : FailsOnly StoreError.Present store.read := by
  refine .get_bind fun disk => ?_
  split
  · exact .pure _
  · exact .throw trivial

theorem present_of_recordsOfRows {rows : List RecordRow} {e : StoreError}
    (h : recordsOfRows rows = .error e) : e.Present := by
  induction rows with
  | nil => cases h
  | cons row rest ih =>
      rw [recordsOfRows] at h
      cases hrow : Record.parse row.body with
      | error _ =>
          rw [hrow] at h
          cases h
          trivial
      | ok r =>
          rw [hrow] at h
          cases hrest : recordsOfRows rest with
          | error e' =>
              rw [hrest] at h
              cases h
              exact ih hrest
          | ok rs =>
              rw [hrest] at h
              cases h

theorem find_present (store : DatabaseStore) (scope : Scope) (filter : Filter) :
    FailsOnly StoreError.Present (store.find scope filter) := by
  refine .bind store.read_present fun db => ?_
  split
  · exact .throw trivial
  · exact .ofExcept fun e he => present_of_recordsOfRows he

end DatabaseStore

namespace Store

variable {env : Surroundings} {config : StoreConfig} {disk disk' : Disk} {e : StoreError}

theorem openOrCreate_present (env : Surroundings) (config : StoreConfig) :
    FailsOnly StoreError.Present (openOrCreate env config) := by
  obtain ⟨backend, path⟩ := config
  cases backend with
  | file => exact .map (DirectoryStore.openAt_present _) _
  | sqlite => exact .map (DatabaseStore.openAt_present _) _

theorem find_present (store : Store) (scope : Scope) (filter : Filter) :
    FailsOnly StoreError.Present (store.find scope filter) := by
  cases store with
  | directory store => exact .pure _
  | database store => exact store.find_present scope filter

/-- Where the path of the store leads to something, the store is not said to be missing. -/
theorem openExisting_present (h : disk.follow? env.workingDirectory config.path ≠ none)
    (ho : openExisting env config disk = (.error e, disk')) : e.Present := by
  rcases openExisting_of_present h with he | he | he
  · cases he.symm.trans ho
    trivial
  · cases he.symm.trans ho
    trivial
  · exact openOrCreate_present env config disk e disk' (he.symm.trans ho)

end Store

end RecordSearch

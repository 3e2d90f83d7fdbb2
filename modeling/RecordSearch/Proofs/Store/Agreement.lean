import Mathlib
import RecordSearch.Proofs.Query.Typing
import RecordSearch.Proofs.Store.Contents

/-!
# Both kinds of stores find the same

A compiled query finds, in a store made of files and in one in a database that were filled with the same
records, the same records in the same order.
-/

namespace RecordSearch

namespace StoreConfig

/-- Nothing is on the disk where the store keeps its records. -/
def Vacant (env : Surroundings) (config : StoreConfig) (disk : Disk) : Prop :=
  match config.backend with
  | .file => disk.content? (DirectoryStore.recordsPlace (config.place env)).location = none
  | .sqlite => disk.content? (config.place env).location = none

end StoreConfig

namespace Store

/-- Opens a store, which is made if it does not exist, and inserts lists of records. -/
def filled (env : Surroundings) (config : StoreConfig) (batches : List (List Record)) : Action Store := do
  let store ← openOrCreate env config
  store.insertAll batches

variable {env : Surroundings} {config : StoreConfig} {store : Store} {disk disk' : Disk}

theorem holds_nil_of_openOrCreate (hv : config.Vacant env disk)
    (ho : openOrCreate env config disk = (.ok store, disk')) : store.Holds disk' [] := by
  obtain ⟨backend, path⟩ := config
  cases backend with
  | file =>
      obtain ⟨files, hfiles, rfl⟩ := Action.map_eq_ok ho
      exact DirectoryStore.openAt_records_nil hv hfiles
  | sqlite =>
      obtain ⟨database, hdatabase, rfl⟩ := Action.map_eq_ok ho
      exact DatabaseStore.openAt_holds_nil hv hdatabase

/-- A store that was vacant holds what was inserted. -/
theorem holds_of_filled {batches : List (List Record)} (hv : config.Vacant env disk)
    (hf : filled env config batches disk = (.ok store, disk')) : store.Holds disk' batches.flatten := by
  obtain ⟨opened, d, ho, hi⟩ := Action.bind_eq_ok hf
  exact (holds_nil_of_openOrCreate hv ho).insertAll hi

/-- Without null characters a store of either kind finds what the filter accepts. -/
theorem Holds.find_nullFree {held : List Record} {scope : Scope} {filter : Filter}
    (h : store.Holds disk held) (hf : filter.WellTyped scope)
    (hp : ∀ pattern ∈ filter.patterns, '\x00' ∉ pattern.toList)
    (hr : ∀ r ∈ held, r.toJson.nullFree = true) :
    store.find scope filter disk =
      (.ok (held.filter fun r => r.inScope scope && filter.accepts r.toJson), disk) := by
  rw [h.find hf]
  congr 2
  refine List.filter_congr fun r hm => ?_
  cases store with
  | directory _ => rw [matching, Filter.acceptsBy_matchesPattern]
  | database _ => rw [matching, Filter.acceptsBy_matchesUntilNull (hr r hm) hp]

/-- What a compiled query finds in a store made of files it finds in a database with the same records,
and it finds the records of its scope that its filter accepts, in the order in which they were inserted. -/
theorem find_agrees {entity : Entity} {query : String} {byOr : Bool} {scope : Scope} {filter : Filter}
    (hc : entity.compile query byOr = .ok (scope, filter))
    (hp : ∀ pattern ∈ filter.patterns, '\x00' ∉ pattern.toList)
    {batches batches' : List (List Record)} (hb : batches.flatten = batches'.flatten)
    (hr : ∀ r ∈ batches.flatten, r.toJson.nullFree = true)
    {env env' : Surroundings} {path path' : String} {disk disk' filesDisk databaseDisk : Disk}
    {files database : Store}
    (hvacant : StoreConfig.Vacant env ⟨.file, path⟩ disk)
    (hvacant' : StoreConfig.Vacant env' ⟨.sqlite, path'⟩ disk')
    (hfiles : filled env ⟨.file, path⟩ batches disk = (.ok files, filesDisk))
    (hdatabase : filled env' ⟨.sqlite, path'⟩ batches' disk' = (.ok database, databaseDisk)) :
    ∃ found, files.find scope filter filesDisk = (.ok found, filesDisk) ∧
      database.find scope filter databaseDisk = (.ok found, databaseDisk) ∧
      found = batches.flatten.filter fun r => r.inScope scope && filter.accepts r.toJson := by
  obtain ⟨rfl, hf⟩ := Entity.compile_eq_ok_iff.mp hc
  have htyped := entity.operatorsTyped.build hf
  have hh := holds_of_filled hvacant hfiles
  have hh' := holds_of_filled hvacant' hdatabase
  rw [← hb] at hh'
  exact ⟨_, hh.find_nullFree htyped hp hr, hh'.find_nullFree htyped hp hr, rfl⟩

theorem find_agrees_users :
    let green : Record := .user ⟨"al", "Al Green", "Physics", none, ⟨7, "admin", "", true⟩⟩
    let black : Record := .user ⟨"bo", "Bo Black", "", none, ⟨8, "member", "", false⟩⟩
    let account : Record := .account ⟨"al", "al@green", true⟩
    let filter : Filter := .restricted (.like ⟨["name"], .text⟩ "%green%" true)
    Entity.users.compile "name:~GREEN" false = .ok (.users, filter) ∧
      ∃ files database filesDisk databaseDisk,
        filled ⟨[], 0⟩ ⟨.file, "f"⟩ [[green], [account, black]] {} = (.ok files, filesDisk) ∧
        filled ⟨[], 0⟩ ⟨.sqlite, "d"⟩ [[green, account], [black]] {} =
          (.ok database, databaseDisk) ∧
        files.find .users filter filesDisk = (.ok [green], filesDisk) ∧
        database.find .users filter databaseDisk = (.ok [green], databaseDisk) := by
  intro green black account filter
  have hp : Query.parse .user "name:~GREEN" false = [⟨"name", ":~", .text "GREEN", false⟩] := by cbv
  have hc : Entity.users.compile "name:~GREEN" false = .ok (.users, filter) :=
    Entity.compile_of_parse hp rfl
  have hopen : openOrCreate ⟨[], 0⟩ ⟨.file, "f"⟩ {} =
      (.ok (.directory ⟨⟨"f", ["f"], [[]]⟩, none, []⟩), ⟨[(["f"], .directory)]⟩) := by
    cbv
  have hopen' : openOrCreate ⟨[], 0⟩ ⟨.sqlite, "d"⟩ {} =
      (.ok (.database ⟨⟨"d", ["d"], [[]]⟩, none⟩), ⟨[(["d"], .database {})]⟩) := by
    cbv
  have hwritable : DirectoryStore.Writable ⟨⟨"f", ["f"], [[]]⟩, none, []⟩ ⟨[(["f"], .directory)]⟩ :=
    .inr ⟨by cbv, by cbv⟩
  have hcontent : DatabaseStore.database? ⟨⟨"d", ["d"], [[]]⟩, none⟩ ⟨[(["d"], .database {})]⟩ =
      some {} := by
    cbv
  obtain ⟨files, filesDisk, hinsert⟩ :=
    exists_insertAll_directory _ hwritable [[green], [account, black]]
  obtain ⟨database, databaseDisk, hinsert'⟩ :=
    exists_insertAll_database _ hcontent [[green, account], [black]]
  have hfiles := (Action.bind_of_ok hopen).trans hinsert
  have hdatabase := (Action.bind_of_ok hopen').trans hinsert'
  have hpatterns : ∀ pattern ∈ filter.patterns, '\x00' ∉ pattern.toList := by
    intro pattern hm
    rw [List.mem_singleton.mp hm]
    decide
  have hbatches : [[green], [account, black]].flatten = [[green, account], [black]].flatten := rfl
  have hnull : ∀ r ∈ [[green], [account, black]].flatten, r.toJson.nullFree = true := by
    intro r hr
    change r ∈ [green, account, black] at hr
    simp only [List.mem_cons, List.not_mem_nil, or_false] at hr
    rcases hr with rfl | rfl | rfl <;> decide
  obtain ⟨found, hf, hd, hfound⟩ := find_agrees hc hpatterns hbatches hnull (by cbv) (by cbv)
    hfiles hdatabase
  have hgreen : found = [green] := by
    rw [hfound]
    decide
  subst hgreen
  exact ⟨hc, _, _, _, _, hfiles, hdatabase, hf, hd⟩

end Store

end RecordSearch

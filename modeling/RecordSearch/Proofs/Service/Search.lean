import Mathlib
import RecordSearch.Proofs.Query.Typing
import RecordSearch.Proofs.Store.Contents
import RecordSearch.Proofs.Store.Failure
import RecordSearch.Proofs.Store.Unsupported
import RecordSearch.Service.Router

/-!
# Answers to searches

What the service answers to a search: a query that is refused, a store that is missing and any other failure
are told apart by the status, and a refusal and a failure tell nothing else.
-/

namespace RecordSearch

/-! ## Requests -/

namespace SearchRequest

variable {request : SearchRequest}

/-- The entity is not known, or the query does not compile for it. -/
def Rejected (request : SearchRequest) : Prop :=
  Entity.ofName? request.entity = none ∨
    ∃ entity e, Entity.ofName? request.entity = some entity ∧
      entity.compile request.query request.byOr = .error e

/-- The store that is searched if there is another one by default. -/
def config (default : StoreConfig) (request : SearchRequest) : StoreConfig := request.store.getD default

theorem rejected_iff : request.Rejected ↔ ∃ e, request.compiled = .error e := by
  unfold Rejected compiled Entity.ofName
  cases Entity.ofName? request.entity with
  | none => exact iff_of_true (.inl rfl) ⟨_, rfl⟩
  | some entity =>
      constructor
      · rintro (h | ⟨_, e, ⟨⟩, he⟩)
        · cases h
        · exact ⟨e, he⟩
      · rintro ⟨e, he⟩
        exact .inr ⟨entity, e, rfl, he⟩

theorem not_rejected_iff : ¬ request.Rejected ↔ ∃ scope filter, request.compiled = .ok (scope, filter) := by
  rw [rejected_iff]
  cases request.compiled with
  | error e => exact iff_of_false (not_not_intro ⟨e, rfl⟩) (by rintro ⟨_, _, ⟨⟩⟩)
  | ok compiled => exact iff_of_true (by rintro ⟨_, ⟨⟩⟩) ⟨compiled.1, compiled.2, rfl⟩

end SearchRequest

namespace Service

variable {env : Surroundings} {default : StoreConfig} {request : SearchRequest} {disk : Disk} {r : Request}
  {response : Response}

/-- A search is asked for: the body of the request can be read as one. The body lies within the limit of the
reader of bodies. -/
structure Request.Asks (r : Request) (request : SearchRequest) : Prop where
  method : r.method = "POST"
  target : pathOf r.target = Route.search.path
  body : ∃ v, readBody SearchRequest.shape r = .ok v ∧ SearchRequest.ofJson? v = some request

theorem respond_of_asks (h : r.Asks request) :
    respond env default r disk = search env default request disk := by
  obtain ⟨v, hv, hrequest⟩ := h.body
  have hroute : Route.all.find? (·.path = pathOf r.target) = some .search := by
    rw [h.target]
    decide
  have hmethod : ¬ r.method ∉ Route.search.methods := by
    rw [h.method]
    decide
  have hhead : r.method ≠ "HEAD" := by
    rw [h.method]
    decide
  rw [respond, hroute]
  simp only [if_neg hmethod, if_neg hhead, Route.respond, hv, hrequest]

/-! ## Answers -/

/-- The answer to a search that is refused. -/
def refusal : Response :=
  ⟨400, some (.object [("results", .array []), ("error", .string "invalid search expression")])⟩

def missing (path : String) : Response :=
  ⟨404, some (.object [("error", .string ("store not found at " ++ path))])⟩

def internalError : Response := ⟨500, some (.object [("error", .string "internal error")])⟩

def answer (records : List Record) : Response :=
  ⟨200, some (.object [("results", .array (records.map Record.toJson)), ("error", .null)])⟩

/-- What is answered to an error of the store can be told by what its message begins with. -/
theorem storeFailure_eq (e : StoreError) :
    storeFailure e =
      if StoreError.missingStore.toList <+: (e.message?.getD "").toList then
        ⟨404, errorBody (e.message?.getD "")⟩
      else internalError := by
  split
  · next h =>
    cases e with
    | notFound path => rfl
    | _ => exact absurd trivial ((StoreError.missingStore_prefix_iff _).mp h)
  · next h =>
    cases e with
    | notFound path => exact absurd ((StoreError.missingStore_prefix_iff _).mpr id) h
    | _ => rfl

theorem storeFailure_of_present {e : StoreError} (h : e.Present) : storeFailure e = internalError := by
  rw [storeFailure_eq, if_neg fun hprefix => (e.missingStore_prefix_iff.mp hprefix) h]

/-- The search finds these records in the store once it is open. -/
def Finds (env : Surroundings) (config : StoreConfig) (request : SearchRequest) (disk : Disk)
    (records : List Record) : Prop :=
  ∃ scope filter store opened, request.compiled = .ok (scope, filter) ∧
    Store.openExisting env config disk = (.ok store, opened) ∧
    (store.find scope filter opened).1 = .ok records

/-- If the store holds records, these are the ones in the scope of the search that its filter accepts. -/
def Matching (env : Surroundings) (config : StoreConfig) (request : SearchRequest) (disk : Disk)
    (records : List Record) : Prop :=
  ∀ scope filter store opened held, request.compiled = .ok (scope, filter) →
    Store.openExisting env config disk = (.ok store, opened) → store.Holds opened held →
    records = held.filter fun r => r.inScope scope && filter.acceptsBy store.matching r.toJson

theorem Finds.matching {config : StoreConfig} {records : List Record}
    (h : Finds env config request disk records) : Matching env config request disk records := by
  intro scope filter store opened held hc ho hh
  obtain ⟨_, _, _, _, hc', ho', hf⟩ := h
  cases hc.symm.trans hc'
  cases ho.symm.trans ho'
  obtain ⟨entity, _, hcompile⟩ := bind_eq_ok_iff.mp hc
  obtain ⟨rfl, hbuild⟩ := Entity.compile_eq_ok_iff.mp hcompile
  rw [hh.find (entity.operatorsTyped.build hbuild)] at hf
  exact (Except.ok.inj hf).symm

/-- Why a search is answered as it is. -/
inductive Outcome (env : Surroundings) (config : StoreConfig) (request : SearchRequest) (disk : Disk) :
    Response → Prop where
  | rejected (h : request.Rejected) : Outcome env config request disk refusal
  | absent (h : ¬ request.Rejected) (hp : disk.follow? env.workingDirectory config.path = none) :
      Outcome env config request disk (missing config.path)
  | failed (h : ¬ request.Rejected) (hp : disk.follow? env.workingDirectory config.path ≠ none)
      (hf : ∀ records, ¬ Finds env config request disk records) :
      Outcome env config request disk internalError
  | found {records : List Record} (h : ¬ request.Rejected)
      (hp : disk.follow? env.workingDirectory config.path ≠ none)
      (hf : Finds env config request disk records) : Outcome env config request disk (answer records)

theorem search_of_rejected (h : request.Rejected) : search env default request disk = (refusal, disk) := by
  obtain ⟨e, he⟩ := SearchRequest.rejected_iff.mp h
  have hrun : { request with store := some (request.config default) }.run env disk =
      (.error (.rejected e), disk) := SearchRequest.run_of_rejected he
  unfold search
  rw [← SearchRequest.config, hrun]
  rfl

/-- What the service answers once the query compiles. -/
theorem search_of_compiled {scope : Scope} {filter : Filter} (h : request.compiled = .ok (scope, filter)) :
    (search env default request disk).1 =
      match ((Store.openExisting env (request.config default) >>= (·.find scope filter)) disk).1 with
      | .ok records => answer records
      | .error e => storeFailure e := by
  let chosen : SearchRequest := { request with store := some (request.config default) }
  have hrun : chosen.run env disk = _ := SearchRequest.run_of_compiled h
  unfold search
  rw [← SearchRequest.config, hrun]
  change _ = match (chosen.search env scope filter disk).1 with
    | .ok records => answer records
    | .error e => storeFailure e
  rcases chosen.search env scope filter disk with ⟨e | records, d⟩
  · rfl
  · rfl

theorem search_outcome :
    Outcome env (request.config default) request disk (search env default request disk).1 := by
  by_cases hr : request.Rejected
  · rw [search_of_rejected hr]
    exact .rejected hr
  · obtain ⟨scope, filter, hc⟩ := SearchRequest.not_rejected_iff.mp hr
    rw [search_of_compiled hc]
    by_cases hp : disk.follow? env.workingDirectory (request.config default).path = none
    · rw [Action.bind_of_error (Store.openExisting_of_absent hp)]
      exact .absent hr hp
    · rcases ho : Store.openExisting env (request.config default) disk with ⟨e | store, opened⟩
      · rw [Action.bind_of_error ho]
        change Outcome _ _ _ _ (storeFailure e)
        rw [storeFailure_of_present (Store.openExisting_present hp ho)]
        refine .failed hr hp ?_
        rintro records ⟨_, _, store, opened', _, ho', _⟩
        cases ho.symm.trans ho'
      · rw [Action.bind_of_ok ho]
        rcases hf : store.find scope filter opened with ⟨e | records, d⟩
        · change Outcome _ _ _ _ (storeFailure e)
          rw [storeFailure_of_present (Store.find_present store scope filter opened e d hf)]
          refine .failed hr hp ?_
          rintro records ⟨scope', filter', store', opened', hc', ho', hf'⟩
          cases hc.symm.trans hc'
          cases ho.symm.trans ho'
          rw [hf] at hf'
          cases hf'
        · exact .found hr hp ⟨scope, filter, store, opened, hc, ho, congrArg Prod.fst hf⟩

/-! ## Statuses -/

/-- The status of the answer says what has become of the search. -/
structure Classified (env : Surroundings) (config : StoreConfig) (request : SearchRequest) (disk : Disk)
    (response : Response) : Prop where
  rejected : response.status = 400 ↔ request.Rejected
  absent (h : ¬ request.Rejected) :
    response.status = 404 ↔ disk.follow? env.workingDirectory config.path = none
  failed (h : ¬ request.Rejected) (hp : disk.follow? env.workingDirectory config.path ≠ none) :
    response.status = 500 ↔ ∀ records, ¬ Finds env config request disk records
  found (h : ¬ request.Rejected) (hp : disk.follow? env.workingDirectory config.path ≠ none) :
    response.status = 200 ↔ ∃ records, Finds env config request disk records

/-- All that is said besides the status: the path of a store that is missing, and what is found. -/
structure Tells (env : Surroundings) (config : StoreConfig) (request : SearchRequest) (disk : Disk)
    (response : Response) : Prop where
  refusal (h : response.status = 400) : response = refusal
  missing (h : response.status = 404) : response = missing config.path
  internalError (h : response.status = 500) : response = internalError
  answer (h : response.status = 200) :
    ∃ records, Finds env config request disk records ∧ Matching env config request disk records ∧
      response = answer records

namespace Outcome

variable {config : StoreConfig}

theorem classified (h : Outcome env config request disk response) :
    Classified env config request disk response := by
  cases h with
  | rejected h =>
      exact ⟨iff_of_true rfl h, fun hn => absurd h hn, fun hn => absurd h hn, fun hn => absurd h hn⟩
  | absent h hp =>
      exact ⟨iff_of_false nofun h, fun _ => iff_of_true rfl hp, fun _ hn => absurd hp hn,
        fun _ hn => absurd hp hn⟩
  | failed h hp hf =>
      exact ⟨iff_of_false nofun h, fun _ => iff_of_false nofun hp, fun _ _ => iff_of_true rfl hf,
        fun _ _ => iff_of_false nofun (not_exists.mpr hf)⟩
  | @found records h hp hf =>
      exact ⟨iff_of_false nofun h, fun _ => iff_of_false nofun hp,
        fun _ _ => iff_of_false nofun fun hn => hn records hf, fun _ _ => iff_of_true rfl ⟨records, hf⟩⟩

theorem tells (h : Outcome env config request disk response) : Tells env config request disk response := by
  cases h with
  | rejected h => exact ⟨fun _ => rfl, nofun, nofun, nofun⟩
  | absent h hp => exact ⟨nofun, fun _ => rfl, nofun, nofun⟩
  | failed h hp hf => exact ⟨nofun, nofun, fun _ => rfl, nofun⟩
  | @found records h hp hf => exact ⟨nofun, nofun, nofun, fun _ => ⟨records, hf, hf.matching, rfl⟩⟩

end Outcome

/-- A search that is asked for is refused, whatever store there is, just if its entity is unknown or its query
does not compile. Else the answer says that the path of the store leads nowhere, or that something went wrong,
or what was found. All refusals are the same, and so are all answers to failures, whatever was asked for and
whatever store was looked at. -/
theorem respond_search (h : r.Asks request) :
    Classified env (request.config default) request disk (respond env default r disk).1 ∧
    Tells env (request.config default) request disk (respond env default r disk).1 ∧
    ∀ {env' : Surroundings} {default' : StoreConfig} {r' : Request} {request' : SearchRequest}
      {disk' : Disk}, r'.Asks request' →
      (request.Rejected → request'.Rejected →
        (respond env default r disk).1 = (respond env' default' r' disk').1) ∧
      ((respond env default r disk).1.status = 500 → (respond env' default' r' disk').1.status = 500 →
        (respond env default r disk).1 = (respond env' default' r' disk').1) := by
  have hsearch {env : Surroundings} {default : StoreConfig} {r : Request} {request : SearchRequest}
      {disk : Disk} (h : r.Asks request) :
      Outcome env (request.config default) request disk (respond env default r disk).1 := by
    rw [respond_of_asks h]
    exact search_outcome
  have houtcome : Outcome env (request.config default) request disk _ := hsearch h
  refine ⟨houtcome.classified, houtcome.tells, fun {env' default' r' request' disk'} h' => ⟨?_, ?_⟩⟩
  · intro hr hr'
    rw [respond_of_asks h, respond_of_asks h', search_of_rejected hr, search_of_rejected hr']
  · intro hs hs'
    have hother : Outcome env' (request'.config default') request' disk' _ := hsearch h'
    rw [houtcome.tells.internalError hs, hother.tells.internalError hs']

/-- A request with a search as its body. -/
def posted (body : String) : Request := ⟨"POST", "/v1/search", some "application/json", body.toList⟩

/-- An unknown entity and an unknown field are refused with the same answer, and a store that is not there and
one that is no database are told apart. -/
theorem respond_search_users :
    let env : Surroundings := ⟨[], 0⟩
    let ghosts := posted "\x7b\"entity\":\"ghosts\"\x7d"
    let rank := posted "\x7b\"entity\":\"users\",\"query\":\"rank=1\"\x7d"
    let all := posted "\x7b\"entity\":\"users\"\x7d"
    let disk : Disk := ⟨[(["d"], .text ['x'])]⟩
    ((respond env ⟨.file, "f"⟩ ghosts {}).1.status = 400 ∧
        (respond env ⟨.file, "f"⟩ ghosts {}).1 = (respond env ⟨.sqlite, "d"⟩ rank disk).1) ∧
      (respond env ⟨.sqlite, "d"⟩ all {}).1 = missing "d" ∧
      (respond env ⟨.sqlite, "d"⟩ all disk).1 = internalError := by
  intro env ghosts rank all disk
  have hghosts : ghosts.Asks ⟨"ghosts", "", false, none⟩ :=
    ⟨rfl, by cbv, .object [("entity", .string "ghosts")], by cbv, by cbv⟩
  have hrank : rank.Asks ⟨"users", "rank=1", false, none⟩ :=
    ⟨rfl, by cbv, .object [("entity", .string "users"), ("query", .string "rank=1")], by cbv, by cbv⟩
  have hall : all.Asks ⟨"users", "", false, none⟩ :=
    ⟨rfl, by cbv, .object [("entity", .string "users")], by cbv, by cbv⟩
  have hunknown : SearchRequest.Rejected ⟨"ghosts", "", false, none⟩ := .inl (by decide)
  have hcompile : Entity.users.compile "rank=1" false =
      .error (.criterion "rank" "=" (.field (.unknown "rank" []))) := by cbv
  have hrejected : SearchRequest.Rejected ⟨"users", "rank=1", false, none⟩ :=
    .inr ⟨.users, _, by decide, hcompile⟩
  have hcompiled : SearchRequest.compiled ⟨"users", "", false, none⟩ = .ok (.users, .unrestricted) := by cbv
  have haccepted : ¬ SearchRequest.Rejected ⟨"users", "", false, none⟩ :=
    SearchRequest.not_rejected_iff.mpr ⟨_, _, hcompiled⟩
  have hnowhere : Disk.follow? {} [] "d" = none := by cbv
  have hthere : (Disk.follow? disk [] "d").isSome = true := by cbv
  have hopen : (Store.openExisting env ⟨.sqlite, "d"⟩ disk).1 = .error .database := by cbv
  obtain ⟨hclass, _, hsame⟩ := @respond_search env ⟨.file, "f"⟩ _ {} _ hghosts
  obtain ⟨hmissing, htells, _⟩ := @respond_search env ⟨.sqlite, "d"⟩ _ {} _ hall
  obtain ⟨hfailed, htellsFailed, _⟩ := @respond_search env ⟨.sqlite, "d"⟩ _ disk _ hall
  refine ⟨⟨hclass.rejected.mpr hunknown, (hsame hrank).1 hunknown hrejected⟩,
    htells.missing ((hmissing.absent haccepted).mpr hnowhere), htellsFailed.internalError ?_⟩
  refine (hfailed.failed haccepted (Option.isSome_iff_ne_none.mp hthere)).mpr ?_
  rintro records ⟨_, _, store, opened, _, ho, _⟩
  cases hopen.symm.trans (congrArg Prod.fst ho)

end Service

end RecordSearch

import Mathlib
import RecordSearch.Proofs.Service.Message
import RecordSearch.Proofs.Service.Search

/-!
# Delegated searches

What a client gets that leaves a search, or a question about a store, to a service: what the program itself
finds with the surroundings of the service.
-/

namespace RecordSearch.Service

variable {network : Network} {server : String} {env : Surroundings} {default config : StoreConfig}
  {request : SearchRequest} {disk disk' : Disk} {response : Response} {summary : StoreSummary}
  {results : List Record}

/-- The response as it arrives, its body read from its text. -/
def Response.received (r : Response) : Response := { r with body := r.body.bind fun v => Json.parse? v.print }

/-- The question reaches a service with these surroundings and this default store, and its response comes back:
nothing on the way refuses the question, for its length or otherwise. -/
def Network.LeadsTo (network : Network) (server : String) (env : Surroundings) (default : StoreConfig)
    (route : Route) (body : Json) : Prop :=
  ∀ disk : Disk,
    network (route.url server) (route.request body) disk =
      (some (respond env default (route.request body) disk).1.received,
        (respond env default (route.request body) disk).2)

-- The library states this of runs of state computations, which the program applies directly.
theorem bind_apply {α β : Type} (x : StateM Disk α) (f : α → StateM Disk β) (disk : Disk) :
    (x >>= f) disk = f (x disk).1 (x disk).2 := rfl

theorem received_of_plain {status : Nat} {v : Json} (h : Json.Plain Json.maxDepth v) :
    Response.received ⟨status, some v⟩ = ⟨status, some v⟩ := by
  rw [Response.received, Option.bind_some, Json.parse?_print h]

/-! ## Requests -/

theorem readBody_request {shape : Json.Shape} {v : Json} (route : Route)
    (h : shape.read v.print = .ok (v, [])) : readBody shape (route.request v) = .ok v := by
  have hmedia : MediaType.parse? "application/json".toList =
      some ⟨"application".toList, "json".toList, none⟩ := by decide
  simp only [readBody, Route.request, Option.bind_some, hmedia, h]
  rfl

/-- The request of a client asks for its search. -/
theorem asks_request (request : SearchRequest) : (Route.search.request request.toJson).Asks request where
  method := rfl
  target := by
    change pathOf Route.search.path = Route.search.path
    decide
  body := ⟨_, readBody_request .search request.read_print, request.ofJson?_toJson⟩

theorem respond_storeInfo (env : Surroundings) (default config : StoreConfig) (disk : Disk) :
    respond env default (Route.storeInfo.request config.toJson) disk = storeInfo env config disk := by
  have hroute : Route.all.find? (·.path = pathOf Route.storeInfo.path) = some .storeInfo := by decide
  have hmethod : ¬ "POST" ∉ Route.storeInfo.methods := by decide
  have hhead : "POST" ≠ "HEAD" := by decide
  have hbody := readBody_request .storeInfo config.read_print
  have htarget : (Route.storeInfo.request config.toJson).target = Route.storeInfo.path := rfl
  have hpost : (Route.storeInfo.request config.toJson).method = "POST" := rfl
  rw [respond, htarget, hroute]
  simp only [hpost, if_neg hmethod, if_neg hhead, Route.respond, hbody, config.ofJson?_toJson]

/-! ## Answers -/

theorem decode_of_read {α : Type} {read : Json → Option α} {v : Json} {a : α} (url : String)
    (h : read v = some a) : decode read url ⟨200, some v⟩ = .ok a := by
  have hstatus : ¬ (400 ≤ 200 ∧ 200 < 600) := by decide
  rw [decode, if_neg hstatus, Option.bind_some, h]

theorem delegateSearch_apply (network : Network) (server : String) (request : SearchRequest) (disk : Disk) :
    delegateSearch network server request disk =
      let answered := network (Route.search.url server) (Route.search.request request.toJson) disk
      (answered.1.elim (.error (.unsent (Route.search.url server))) (readReply (Route.search.url server)),
        answered.2) := by
  dsimp only
  rw [delegateSearch, bind_apply]
  cases (network (Route.search.url server) (Route.search.request request.toJson) disk).1 <;> rfl

theorem delegateStoreInfo_apply (network : Network) (server : String) (config : StoreConfig) (disk : Disk) :
    delegateStoreInfo network server config disk =
      let answered := network (Route.storeInfo.url server) (Route.storeInfo.request config.toJson) disk
      (answered.1.elim (.error (.unsent (Route.storeInfo.url server)))
        (decode StoreSummary.ofJson? (Route.storeInfo.url server)), answered.2) := by
  dsimp only
  rw [delegateStoreInfo, bind_apply]
  cases (network (Route.storeInfo.url server) (Route.storeInfo.request config.toJson) disk).1 <;> rfl

theorem delegateSearch_eq (hn : network.LeadsTo server env default .search request.toJson)
    (h : search env default request disk = (response, disk')) :
    delegateSearch network server request disk =
      (readReply (Route.search.url server) response.received, disk') := by
  have hreach := hn disk
  rw [respond_of_asks (asks_request request), h] at hreach
  rw [delegateSearch_apply, hreach]
  rfl

theorem delegateSearch_of_rejected (hn : network.LeadsTo server env default .search request.toJson)
    (h : request.Rejected) :
    delegateSearch network server request disk = (.error (.refused invalidSearchExpression), disk) := by
  have hplain : Json.Plain Json.maxDepth SearchReply.refused.toJson :=
    SearchReply.refused.plain.mono (by decide)
  have hreceived : refusal.received = ⟨400, some SearchReply.refused.toJson⟩ := received_of_plain hplain
  rw [delegateSearch_eq hn (search_of_rejected h), hreceived, readReply, if_pos rfl, Option.bind_some,
    SearchReply.ofJson?_toJson]
  rfl

theorem delegateSearch_of_found (hn : network.LeadsTo server env default .search request.toJson)
    (hs : request.store = some config) (h : request.run env disk = (.ok results, disk')) :
    delegateSearch network server request disk = (.ok (.found results), disk') := by
  have hplain : Json.Plain Json.maxDepth (SearchReply.found results).toJson :=
    (SearchReply.found results).plain.mono (by decide)
  have hsearch : search env default request disk =
      (⟨200, some (SearchReply.found results).toJson⟩, disk') := by
    have hsame : { request with store := some (request.store.getD default) } = request := by
      rw [hs, Option.getD_some, ← hs]
    rw [search, hsame, h]
  have hstatus : 200 ≠ 400 := by decide
  rw [delegateSearch_eq hn hsearch, received_of_plain hplain, readReply, if_neg hstatus,
    decode_of_read _ (SearchReply.ofJson?_toJson _)]

theorem delegateStoreInfo_of_ok (hn : network.LeadsTo server env default .storeInfo config.toJson)
    (h : Store.info env config disk = (.ok summary, disk')) (hf : summary.Fits) :
    delegateStoreInfo network server config disk = (.ok summary, disk') := by
  have hplain : Json.Plain Json.maxDepth summary.toJson := (StoreSummary.plain hf).mono (by decide)
  have hreach := hn disk
  rw [respond_storeInfo, storeInfo, h, received_of_plain hplain] at hreach
  have hdecode := decode_of_read (Route.storeInfo.url server) (StoreSummary.ofJson?_toJson hf)
  rw [delegateStoreInfo_apply, hreach]
  exact congrArg (·, disk') hdecode

end RecordSearch.Service

import RecordSearch.Service.Message

/-!
# Routes of the search service

The service answers searches and questions about stores and entities. A query that does not compile is
answered with one fixed message, a store that does not exist with its path, and every other failure with
another fixed message.
-/

namespace RecordSearch.Service

inductive Route where
  | health
  | entities
  | search
  | storeInfo
  deriving DecidableEq, Repr

namespace Route

def all : List Route := [.health, .entities, .search, .storeInfo]

def path : Route → String
  | .health => "/v1/health"
  | .entities => "/v1/entities"
  | .search => "/v1/search"
  | .storeInfo => "/v1/store/info"

/-- The methods that a route takes. What can be fetched can also be asked for without its body. -/
def methods : Route → List String
  | .health | .entities => ["GET", "HEAD"]
  | .search | .storeInfo => ["POST"]

end Route

def pathOf (target : String) : String := String.ofList (target.toList.takeWhile (· ≠ '?'))

def errorBody (message : String) : Json := .object [("error", .string message)]

def storeFailure (e : StoreError) : Response :=
  match e with
  | .notFound path => ⟨404, errorBody ((StoreError.notFound path).message?.getD "")⟩
  | _ => ⟨500, errorBody "internal error"⟩

/-- The response to a search in the given store unless the request names another. -/
def search (env : Surroundings) (default : StoreConfig) (request : SearchRequest) (disk : Disk) :
    Response × Disk :=
  match { request with store := some (request.store.getD default) }.run env disk with
  | (.ok results, disk) => (⟨200, (SearchReply.found results).toJson⟩, disk)
  | (.error (.rejected _), disk) => (⟨400, SearchReply.refused.toJson⟩, disk)
  | (.error (.store e), disk) => (storeFailure e, disk)

def storeInfo (env : Surroundings) (config : StoreConfig) (disk : Disk) : Response × Disk :=
  match Store.info env config disk with
  | (.ok summary, disk) => (⟨200, summary.toJson⟩, disk)
  | (.error e, disk) => (storeFailure e, disk)

def Route.respond (env : Surroundings) (default : StoreConfig) (r : Request) (disk : Disk) :
    Route → Response × Disk
  | .health => (⟨200, Json.object [("status", .string "ok")]⟩, disk)
  | .entities => (⟨200, Json.array (Entity.catalogue.map Entity.Summary.toJson)⟩, disk)
  | .search =>
      match readBody SearchRequest.shape r with
      | .error status => (⟨status, none⟩, disk)
      | .ok v =>
          match SearchRequest.ofJson? v with
          | some request => Service.search env default request disk
          | none => (⟨422, none⟩, disk)
  | .storeInfo =>
      match readBody StoreConfig.shape r with
      | .error status => (⟨status, none⟩, disk)
      | .ok v =>
          match StoreConfig.ofJson? v with
          | some config => Service.storeInfo env config disk
          | none => (⟨422, none⟩, disk)

def respond (env : Surroundings) (default : StoreConfig) (r : Request) (disk : Disk) :
    Response × Disk :=
  match Route.all.find? (·.path = pathOf r.target) with
  | none => (⟨404, none⟩, disk)
  | some route =>
      if r.method ∉ route.methods then (⟨405, none⟩, disk)
      else
        let (response, disk) := route.respond env default r disk
        (if r.method = "HEAD" then { response with body := none } else response, disk)

end RecordSearch.Service

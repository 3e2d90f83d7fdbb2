import RecordSearch.Service.Router

/-!
# Clients of the search service

Searches and questions about stores that a service answers in place of the program. What the service says
about a refused query is told apart from every other failure.
-/

namespace RecordSearch.Service

/-- How a request to a URL is answered, if an answer comes back, and what becomes of the disk. -/
abbrev Network := String → Request → StateM Disk (Option Response)

/-- The network on which nobody answers. -/
def Network.unreachable : Network := fun _ _ => pure none

inductive ClientError where
  | unsent (url : String)
  /-- The service refuses a search and says why. -/
  | refused (message : String)
  /-- The service refuses a search and does not say why. -/
  | refusedWithout (url : String)
  | failed (url : String)
  | undecodable
  deriving DecidableEq, Repr

def ClientError.message : ClientError → String
  | .unsent url => s!"failed to send request to {url}"
  | .refused message => message
  | .refusedWithout url => s!"server rejected request to {url}"
  | .failed url => s!"server returned error for {url}"
  | .undecodable => "failed to decode JSON response from server"

def baseUrl (server : String) : List Char := (server.toList.reverse.dropWhile (· = '/')).reverse

def Route.url (server : String) (route : Route) : String :=
  String.ofList (baseUrl server ++ route.path.toList)

def Route.request (route : Route) (body : Json) : Request where
  method := "POST"
  target := route.path
  contentType := some "application/json"
  body := body.print

/-- The value in a response that is neither a refusal nor a failure. -/
def decode {α : Type} (read : Json → Option α) (url : String) (response : Response) :
    Except ClientError α :=
  if 400 ≤ response.status ∧ response.status < 600 then .error (.failed url)
  else match response.body.bind read with
    | some a => .ok a
    | none => .error .undecodable

def readReply (url : String) (response : Response) : Except ClientError SearchReply :=
  if response.status = 400 then
    match response.body.bind SearchReply.ofJson? with
    | some ⟨_, some message⟩ => .error (.refused message)
    | some ⟨_, none⟩ => .error (.refusedWithout url)
    | none => .error .undecodable
  else decode SearchReply.ofJson? url response

def delegateSearch (network : Network) (server : String) (request : SearchRequest) :
    StateM Disk (Except ClientError SearchReply) := do
  let url := Route.search.url server
  match ← network url (Route.search.request request.toJson) with
  | none => pure (.error (.unsent url))
  | some response => pure (readReply url response)

def delegateStoreInfo (network : Network) (server : String) (config : StoreConfig) :
    StateM Disk (Except ClientError StoreSummary) := do
  let url := Route.storeInfo.url server
  match ← network url (Route.storeInfo.request config.toJson) with
  | none => pure (.error (.unsent url))
  | some response => pure (decode StoreSummary.ofJson? url response)

end RecordSearch.Service

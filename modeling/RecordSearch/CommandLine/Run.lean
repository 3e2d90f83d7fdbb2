import RecordSearch.CommandLine.Report
import RecordSearch.CommandLine.Settings
import RecordSearch.Service.Address
import RecordSearch.Service.Client

/-!
# Running commands

What a command line does: what it prints, how it ends, and what it changes on the disk. A search that is
refused ends with the same message wherever it was refused; every other error has a message of its own.
-/

namespace RecordSearch.CommandLine

open Service (Address ClientError Network)

inductive CommandError where
  | settings (error : SettingsError)
  | missingEntity
  | rejected
  | store (error : StoreError)
  | client (error : ClientError)
  | invalidAddress
  deriving DecidableEq, Repr

/-- The message of an error that is not the file system's or the database's own. -/
def CommandError.message? : CommandError → Option String
  | .settings e => some e.message
  | .missingEntity =>
      some ("missing entity; expected one of: " ++ ", ".intercalate (Entity.all.map Entity.name))
  | .rejected => some invalidSearchExpression
  | .store e => e.message?
  | .client e => some e.message
  | .invalidAddress => some "invalid socket address syntax"

inductive Ending where
  | done
  /-- Help is shown, of which only the first line is fixed. -/
  | helped
  | failed (error : CommandError)
  | misused
  /-- The command goes on as a service with the given default store. -/
  | serving (address : Address) (default : StoreConfig)
  deriving DecidableEq, Repr

def Ending.code : Ending → Nat
  | .done | .helped | .serving _ _ => 0
  | .failed _ => 1
  | .misused => 2

structure Outcome where
  output : String := ""
  ending : Ending := .done
  deriving DecidableEq, Repr

def Outcome.failure (e : CommandError) : Outcome := { ending := .failed e }

/-- A value on a line of its own. -/
def jsonLine (v : Json) : String := textOfLines [v.print]

/-! ## Searches -/

/-- The request of a search; there must be an entity. -/
def SearchCommand.request? (command : SearchCommand) : Option SearchRequest :=
  command.entity.map fun entity =>
    ⟨entity, command.query.getD "", command.byOr, some command.store.config⟩

def clientError (e : ClientError) : CommandError :=
  if e.message = invalidSearchExpression then .rejected else .client e

/-- The answer to a request, from a server or from here. -/
def answer (env : Surroundings) (network : Network) (server : Option String) (request : SearchRequest) :
    StateM Disk (Except CommandError SearchReply) :=
  match server with
  | some url => do
      let reply ← Service.delegateSearch network url request
      pure (reply.mapError clientError)
  | none => do
      let found ← fun disk => request.run env disk
      pure <| match found with
        | .ok results => .ok (.found results)
        | .error (.rejected _) => .error .rejected
        | .error (.store e) => .error (.store e)

def showReply (format : OutputFormat) (reply : SearchReply) : String :=
  match format with
  | .text => textOfLines (recordLines reply.results)
  | .table => textOfLines (tableLines reply.results)
  | .json => jsonLine reply.toJson

/-- The outcome of a search. A refusal is printed, too, if the output is to be read by programs. -/
def searchOutcome (format : OutputFormat) : Except CommandError SearchReply → Outcome
  | .ok reply => { output := showReply format reply }
  | .error .rejected =>
      { output := if format = .json then jsonLine SearchReply.refused.toJson else ""
        ending := .failed .rejected }
  | .error e => .failure e

def SearchCommand.run (env : Surroundings) (network : Network) (command : SearchCommand) :
    StateM Disk Outcome :=
  match command.request? with
  | none => pure (.failure .missingEntity)
  | some request => do
      let reply ← answer env network command.server.effective request
      pure (searchOutcome command.format reply)

/-! ## Stores -/

def LoadCommand.run (env : Surroundings) (command : LoadCommand) : StateM Disk Outcome := do
  match ← (Store.load env command.store.config command.input).run with
  | .error e => pure (.failure (.store e))
  | .ok summary =>
      let line := "Loaded " ++ countText (summary.loaded.getD 0) ++ " records into " ++
        summary.backend.name ++ " store at " ++ summary.path
      pure { output := textOfLines [line.toList] }

def StoreInfoCommand.run (env : Surroundings) (network : Network) (command : StoreInfoCommand) :
    StateM Disk Outcome := do
  let config := command.store.config
  let summary : Except CommandError StoreSummary ← match command.server.effective with
    | some url => do
        let summary ← Service.delegateStoreInfo network url config
        pure (summary.mapError .client)
    | none => do
        let summary ← (Store.info env config).run
        pure (summary.mapError .store)
  pure <| match summary with
    | .error e => .failure e
    | .ok summary =>
        match command.format with
        | .text | .table => { output := textOfLines (storeLines summary) }
        | .json => { output := jsonLine summary.toJson }

/-! ## Other commands -/

def EntitiesCommand.run (command : EntitiesCommand) : Outcome :=
  match command.format with
  | .text | .table => { output := textOfLines (catalogueLines Entity.catalogue) }
  | .json => { output := jsonLine (.array (Entity.catalogue.map Entity.Summary.toJson)) }

def ServeCommand.run (command : ServeCommand) : Outcome :=
  match Address.parse? command.address.toList with
  | none => .failure .invalidAddress
  | some address =>
      { output := textOfLines ["Starting appsearch HTTP server on http://".toList ++ address.print]
        ending := .serving address command.store.config }

def Command.run (env : Surroundings) (network : Network) : Command → StateM Disk Outcome
  | .search command => command.run env network
  | .load command => command.run env
  | .storeInfo command => command.run env network
  | .entities command => pure command.run
  | .serve command => pure command.run

/-- The paths of what a command may read or write. -/
def Command.paths : Command → List String
  | .search command => [command.store.config.path]
  | .load command => [command.input, command.store.config.path]
  | .storeInfo command => [command.store.config.path]
  | .entities _ | .serve _ => []

/-! ## Command lines -/

def helpOutcome (about : String) : Outcome := { output := about, ending := .helped }

/-- What remains to be run of a command line once arguments and settings are read: a command with all that
is known of it, or the outcome at once. -/
def prepare (env : Surroundings) (namedServer : Option String) (arguments : List String) (disk : Disk) :
    Except Outcome Command :=
  match readArguments namedServer arguments with
  | .error (.help about) => .error (helpOutcome about)
  | .error .misuse => .error { ending := .misused }
  | .ok command =>
      match Settings.discover env.workingDirectory disk with
      | .error e => .error (.failure (.settings e))
      | .ok settings =>
          match command with
          | none => .error (helpOutcome programSignature.about)
          | some command => .ok (command.fill settings)

/-- Runs a command line. `namedServer` is the server that the environment names. -/
def run (env : Surroundings) (network : Network) (namedServer : Option String) (arguments : List String) :
    StateM Disk Outcome := do
  match prepare env namedServer arguments (← get) with
  | .error outcome => pure outcome
  | .ok command => command.run env network

end RecordSearch.CommandLine

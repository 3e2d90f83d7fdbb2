import RecordSearch.CommandLine.Arguments
import RecordSearch.Store.Basic

/-!
# Commands

The commands of the program with their options, and how they are read from arguments.
-/

namespace RecordSearch.CommandLine

inductive OutputFormat where
  | text
  | table
  | json
  deriving DecidableEq, Repr, Inhabited

namespace OutputFormat

def all : List OutputFormat := [.text, .table, .json]

def name : OutputFormat → String
  | .text => "text"
  | .table => "table"
  | .json => "json"

def ofName? (name : String) : Option OutputFormat := all.find? (·.name = name)

end OutputFormat

structure StoreChoice where
  backend : Option Backend := none
  path : Option String := none
  deriving DecidableEq, Repr

/-- The kind of store that a path suggests: a database if the file name ends that way. -/
def backendOfPath (path : String) : Backend :=
  match extension? path with
  | some extension => if extension.toList.map Char.toLower = "sqlite".toList then .sqlite else .file
  | none => .file

/-- The store to use. A given kind counts more than what the path suggests, and every kind has a path of
its own if none is given. -/
def StoreChoice.config (choice : StoreChoice) : StoreConfig :=
  let backend := choice.backend.getD ((choice.path.map backendOfPath).getD .file)
  ⟨backend, choice.path.getD backend.defaultPath⟩

structure ServerChoice where
  url : Option String := none
  disabled : Bool := false
  deriving DecidableEq, Repr

def ServerChoice.effective (choice : ServerChoice) : Option String :=
  if choice.disabled then none else choice.url

structure SearchCommand where
  entity : Option String := none
  query : Option String := none
  byOr : Bool := false
  format : OutputFormat := .text
  store : StoreChoice := {}
  server : ServerChoice := {}
  deriving DecidableEq, Repr

structure LoadCommand where
  input : String
  store : StoreChoice := {}
  deriving DecidableEq, Repr

structure StoreInfoCommand where
  format : OutputFormat := .text
  store : StoreChoice := {}
  server : ServerChoice := {}
  deriving DecidableEq, Repr

structure EntitiesCommand where
  format : OutputFormat := .text
  deriving DecidableEq, Repr

/-- Where a server listens if no address is given. -/
def defaultAddress : String := "127.0.0.1:7878"

structure ServeCommand where
  address : String := defaultAddress
  store : StoreChoice := {}
  deriving DecidableEq, Repr

inductive Command where
  | search (command : SearchCommand)
  | load (command : LoadCommand)
  | storeInfo (command : StoreInfoCommand)
  | entities (command : EntitiesCommand)
  | serve (command : ServeCommand)
  deriving DecidableEq, Repr

/-! ## Signatures -/

def commonOptions : List (String × ValueKind) := [("log-level", .any)]

def formatOption : String × ValueKind := ("format", .oneOf (OutputFormat.all.map (·.name)))

def storeOptions : List (String × ValueKind) :=
  [("store-backend", .oneOf (Backend.all.map (·.name))), ("store-path", .nonempty)]

def serverOption : String × ValueKind := ("server", .any)

def programSignature : Signature where
  about := "Search accounts, users, and applications with compact query strings"
  options := commonOptions
  hasCommands := true

def searchSignature : Signature where
  about := "Search records of one entity kind"
  flags := ["or", "no-server"]
  options := formatOption :: serverOption :: (storeOptions ++ commonOptions)
  words := [.any, .any]

def loadSignature : Signature where
  about := "Import JSONL records into a store"
  options := storeOptions ++ commonOptions
  words := [.nonempty]

def storeInfoSignature : Signature where
  about := "Inspect an existing store without modifying it"
  flags := ["no-server"]
  options := formatOption :: serverOption :: (storeOptions ++ commonOptions)

def entitiesSignature : Signature where
  about := "List searchable entity kinds and their operators"
  options := formatOption :: commonOptions

def serveSignature : Signature where
  about := "Run a long-lived HTTP+JSON daemon"
  options := ("addr", .any) :: (storeOptions ++ commonOptions)

def signatures : List (String × Signature) :=
  [("search", searchSignature), ("load", loadSignature), ("store-info", storeInfoSignature),
    ("entities", entitiesSignature), ("serve", serveSignature)]

/-! ## Reading -/

namespace Given

def format (g : Given) : OutputFormat := ((g.options.lookup "format").bind OutputFormat.ofName?).getD .text

def store (g : Given) : StoreChoice :=
  ⟨(g.options.lookup "store-backend").bind Backend.ofName?, g.options.lookup "store-path"⟩

/-- The server of an option, or else of a variable of the environment. -/
def server (g : Given) (namedServer : Option String) : ServerChoice :=
  ⟨(g.options.lookup "server").or namedServer, decide ("no-server" ∈ g.flags)⟩

end Given

def Command.read (namedServer : Option String) (name : String) (arguments : List String) :
    Except Refusal Command :=
  match name with
  | "search" => do
      let g ← searchSignature.readAll arguments
      .ok (.search ⟨g.words[0]?, g.words[1]?, decide ("or" ∈ g.flags), g.format, g.store,
        g.server namedServer⟩)
  | "load" => do
      let g ← loadSignature.readAll arguments
      match g.words with
      | input :: _ => .ok (.load ⟨input, g.store⟩)
      | [] => .error .misuse
  | "store-info" => do
      let g ← storeInfoSignature.readAll arguments
      .ok (.storeInfo ⟨g.format, g.store, g.server namedServer⟩)
  | "entities" => do
      let g ← entitiesSignature.readAll arguments
      .ok (.entities ⟨g.format⟩)
  | "serve" => do
      let g ← serveSignature.readAll arguments
      .ok (.serve ⟨(g.options.lookup "addr").getD defaultAddress, g.store⟩)
  | _ => .error .misuse

/-- What is asked for by words after `help`: help on the program, or on the command that they name. -/
def helpOn : List String → Refusal
  | [] => .help programSignature.about
  | ["help"] => .help "Print this message or the help of the given subcommand(s)"
  | [name] =>
      match signatures.lookup name with
      | some sig => .help sig.about
      | none => .misuse
  | _ => .misuse

/-- Reads the arguments of the program. Without a command there is nothing to do but to show help. -/
def readArguments (namedServer : Option String) (arguments : List String) :
    Except Refusal (Option Command) := do
  match ← programSignature.read {} arguments with
  | (_, "help" :: rest) => .error (helpOn rest)
  | (_, name :: rest) => some <$> Command.read namedServer name rest
  | (_, []) => .ok none

end RecordSearch.CommandLine

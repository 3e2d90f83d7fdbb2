import RecordSearch.CommandLine.Command
import RecordSearch.Entity
import RecordSearch.Toml.Parser

/-!
# Settings

What a project sets for the commands that are run in it. The file with the settings lies in the working
directory or in one around it. Arguments count more than settings, as far as the arguments themselves show
that they were given.
-/

namespace RecordSearch.CommandLine

structure SearchSettings where
  entity : Option String := none
  byOr : Option Bool := none
  format : Option OutputFormat := none
  store : StoreChoice := {}
  server : Option String := none
  noServer : Option Bool := none
  deriving DecidableEq, Repr

structure StoreInfoSettings where
  store : StoreChoice := {}
  format : Option OutputFormat := none
  server : Option String := none
  noServer : Option Bool := none
  deriving DecidableEq, Repr

structure ServeSettings where
  address : Option String := none
  store : StoreChoice := {}
  deriving DecidableEq, Repr

/-- The settings of a project. A section that is missing sets nothing. -/
structure Settings where
  search : SearchSettings := {}
  load : StoreChoice := {}
  storeInfo : StoreInfoSettings := {}
  serve : ServeSettings := {}
  /-- The server for the commands whose own section names none. -/
  serverUrl : Option String := none
  deriving DecidableEq, Repr

inductive SettingsError where
  /-- The file is no text. -/
  | unreadable (file : Location)
  /-- The text is no document, or a field is of another type. -/
  | invalid (file : Location)
  deriving DecidableEq, Repr

def SettingsError.message : SettingsError → String
  | .unreadable file => s!"failed to read config file at {file.path}"
  | .invalid file => s!"failed to parse TOML config at {file.path}"

/-! ## Reading -/

namespace Settings

/-- The value of a field, which may be missing but not be of another type. -/
def field? {α : Type} (read : Toml → Option α) (name : String) (ms : Toml.Members) :
    Option (Option α) :=
  match ms.lookup name with
  | none => some none
  | some v => (read v).map some

def section? (name : String) (names : List String) (document : Toml.Members) : Option Toml.Members :=
  match document.lookup name with
  | none => some []
  | some v => v.fields? names

def text? : String → Toml.Members → Option (Option String) := field? Toml.string?

def flag? : String → Toml.Members → Option (Option Bool) := field? Toml.boolean?

def format? : Toml.Members → Option (Option OutputFormat) :=
  field? (fun v => v.word?.bind OutputFormat.ofName?) "format"

def store? (ms : Toml.Members) : Option StoreChoice := do
  let backend ← field? (fun v => v.word?.bind Backend.ofName?) "store_backend" ms
  let path ← text? "store_path" ms
  some ⟨backend, path⟩

/-- The settings of a document. Names that mean nothing are passed over. -/
def ofToml? (document : Toml.Members) : Option Settings := do
  let search ← section? "search"
    ["entity", "or", "format", "store_backend", "store_path", "server", "no_server"] document
  let load ← section? "load" ["store_backend", "store_path"] document
  let storeInfo ← section? "store_info"
    ["store_backend", "store_path", "format", "server", "no_server"] document
  let serve ← section? "serve" ["addr", "store_backend", "store_path"] document
  let http ← section? "http" ["server_url"] document
  let logging ← section? "logging" ["level"] document
  -- nothing depends on the level, but it must be a text
  let _ ← text? "level" logging
  some {
    search := {
      entity := ← text? "entity" search
      byOr := ← flag? "or" search
      format := ← format? search
      store := ← store? search
      server := ← text? "server" search
      noServer := ← flag? "no_server" search }
    load := ← store? load
    storeInfo := {
      store := ← store? storeInfo
      format := ← format? storeInfo
      server := ← text? "server" storeInfo
      noServer := ← flag? "no_server" storeInfo }
    serve := {
      address := ← text? "addr" serve
      store := ← store? serve }
    serverUrl := ← text? "server_url" http }

def parse? (s : List Char) : Option Settings := (Toml.parse? s).bind ofToml?

/-- The places of the file with settings inside a directory, the preferred one first. -/
def fileNames : List Location := [[".appsearch", "config.toml"], [".appsearch", "appsearch.toml"]]

/-- Where the settings for a directory may lie, the nearest first. -/
def candidates (directory : Location) : List Location :=
  (Disk.path directory).reverse.flatMap fun l => fileNames.map (l ++ ·)

/-- The settings for a directory: those of the first file there is, or none. -/
def discover (directory : Location) (disk : Disk) : Except SettingsError Settings :=
  match (candidates directory).find? disk.isFile with
  | none => .ok {}
  | some l =>
      match disk.content? l with
      | some (.text content) =>
          match parse? content with
          | some settings => .ok settings
          | none => .error (.invalid l)
      | _ => .error (.unreadable l)

end Settings

/-! ## Filling in -/

/-- What is not said of a store is taken from the settings. -/
def StoreChoice.orElse (choice settings : StoreChoice) : StoreChoice :=
  ⟨choice.backend.or settings.backend, choice.path.or settings.path⟩

/-- A format other than the usual one must have been given. -/
def OutputFormat.orElse (format : OutputFormat) (settings : Option OutputFormat) : OutputFormat :=
  if format = .text then settings.getD .text else format

/-- A server is taken from the section of the command, or else from the one for all. -/
def ServerChoice.orElse (choice : ServerChoice) (server : Option String) (noServer : Option Bool)
    (serverUrl : Option String) : ServerChoice :=
  ⟨choice.url.or (server.or serverUrl), choice.disabled || noServer.getD false⟩

/-- Fills in the entity of the settings. A single word that names no entity is the query then. -/
def SearchCommand.withEntity (command : SearchCommand) : Option String → SearchCommand
  | none => command
  | some entity =>
      let namesEntity := (command.entity.bind Entity.ofName?).isSome
      if command.query.isNone ∧ ¬ namesEntity then
        { command with entity := some entity, query := command.entity }
      else command

def SearchCommand.fill (command : SearchCommand) (settings : Settings) : SearchCommand :=
  let s := settings.search
  let command := command.withEntity s.entity
  { command with
    byOr := command.byOr || s.byOr.getD false
    format := command.format.orElse s.format
    store := command.store.orElse s.store
    server := command.server.orElse s.server s.noServer settings.serverUrl }

def LoadCommand.fill (command : LoadCommand) (settings : Settings) : LoadCommand :=
  { command with store := command.store.orElse settings.load }

def StoreInfoCommand.fill (command : StoreInfoCommand) (settings : Settings) : StoreInfoCommand :=
  let s := settings.storeInfo
  { command with
    format := command.format.orElse s.format
    store := command.store.orElse s.store
    server := command.server.orElse s.server s.noServer settings.serverUrl }

/-- An address other than the usual one must have been given. -/
def ServeCommand.fill (command : ServeCommand) (settings : Settings) : ServeCommand :=
  let address :=
    if command.address = defaultAddress then settings.serve.address.getD defaultAddress
    else command.address
  ⟨address, command.store.orElse settings.serve.store⟩

def Command.fill (settings : Settings) : Command → Command
  | .search command => .search (command.fill settings)
  | .load command => .load (command.fill settings)
  | .storeInfo command => .storeInfo (command.fill settings)
  | .entities command => .entities command
  | .serve command => .serve (command.fill settings)

end RecordSearch.CommandLine

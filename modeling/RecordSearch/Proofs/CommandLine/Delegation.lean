import Mathlib
import RecordSearch.Proofs.CommandLine.Reading
import RecordSearch.Proofs.Service.Delegation
import RecordSearch.Proofs.Store.Relocation
import RecordSearch.Proofs.Store.Times

/-!
# Delegation

A command line that leaves its search to a service ends as it does when the program itself searches, if the
service finds the same store under the path.
-/

namespace RecordSearch.CommandLine

open Service (Network Route)

variable {env daemon : Surroundings} {network : Network} {namedServer : Option String} {name server : String}
  {arguments rest : List String} {disk disk' : Disk} {command : Command} {g : Given} {settings : Settings}
  {default config : StoreConfig} {outcome : Outcome}

/-! ## Command lines without a server -/

/-- The server and the store of a command that is left to a service. -/
def Command.delegated? (command : Command) : Option (String × StoreConfig) :=
  command.server.effective.map fun url => (url, command.store.config)

/-- The question that a command has for a server. -/
def Command.question? : Command → Option (Route × Json)
  | .search command => command.request?.map fun request => (.search, request.toJson)
  | .storeInfo command => some (.storeInfo, command.store.config.toJson)
  | _ => none

def SearchCommand.offline (command : SearchCommand) : SearchCommand :=
  { command with server := { command.server with disabled := true } }

def StoreInfoCommand.offline (command : StoreInfoCommand) : StoreInfoCommand :=
  { command with server := { command.server with disabled := true } }

def Command.offline : Command → Command
  | .search command => .search command.offline
  | .storeInfo command => .storeInfo command.offline
  | command => command

/-- The command line with `--no-server` behind the name of its command. -/
def offline (arguments : List String) : List String :=
  match programSignature.read {} arguments with
  | .ok (_, _ :: rest) => arguments.take (arguments.length - rest.length) ++ "--no-server" :: rest
  | _ => arguments

theorem read_offline (h : programSignature.read {} arguments = .ok (g, name :: rest)) :
    programSignature.read {} (offline arguments) = .ok (g, name :: "--no-server" :: rest) := by
  obtain ⟨before, rfl, hbefore⟩ := (Signature.reads_of_read h).command_split
  have hsplit : before ++ name :: rest = (before ++ [name]) ++ rest := List.append_cons ..
  have hlength : (before ++ name :: rest).length - rest.length = (before ++ [name]).length := by
    rw [hsplit, List.length_append, Nat.add_sub_cancel]
  have hoffline : offline (before ++ name :: rest) = before ++ name :: "--no-server" :: rest := by
    rw [offline, h]
    dsimp only
    rw [hlength, hsplit, List.take_left, ← List.append_cons]
  rw [hoffline]
  exact Signature.read_of_reads (hbefore _)

theorem readAll_noServer {sig : Signature} (hf : "no-server" ∈ sig.flags)
    (ho : "no-server" ∉ sig.options.map (·.1)) (h : sig.readAll rest = .ok g) (hn : "no-server" ∉ g.flags) :
    sig.readAll ("--no-server" :: rest) = .ok (g.withFlag "no-server") := by
  obtain ⟨⟨g', left⟩, hread, h⟩ := bind_eq_ok_iff.mp h
  cases h
  have hform : Form.of "--no-server" = .long "no-server" none := by decide
  have hadd : sig.addFlag "no-server" {} = .ok (Given.withFlag "no-server" {}) :=
    if_pos ⟨hf, List.not_mem_nil⟩
  have hrest := (Signature.reads_of_read hread).withFlag hn
  have hall : sig.read {} ("--no-server" :: rest) = .ok (g.withFlag "no-server", left) :=
    Signature.read_of_reads (.flag hform (by decide) ho hadd hrest)
  rw [Signature.readAll, hall]
  rfl

/-- Settings name no server for a command line that turns servers away. -/
theorem Given.noServer_not_mem {named url : Option String} {noServer : Option Bool}
    (h : ((g.server namedServer).orElse named noServer url).effective = some server) :
    "no-server" ∉ g.flags := by
  intro hn
  simp [Given.server, ServerChoice.orElse, ServerChoice.effective, hn] at h

theorem Given.server_withFlag (g : Given) (namedServer : Option String) :
    (g.withFlag "no-server").server namedServer = { g.server namedServer with disabled := true } := by
  simp [Given.server, Given.withFlag]

theorem Given.search_withFlag (g : Given) (namedServer : Option String) :
    (g.withFlag "no-server").search namedServer = (g.search namedServer).offline := by
  have hor : ("or" ∈ (g.withFlag "no-server").flags) = ("or" ∈ g.flags) := by simp [Given.withFlag]
  simp only [Given.search, Given.server_withFlag, hor]
  rfl

theorem Given.storeInfo_withFlag (g : Given) (namedServer : Option String) :
    (g.withFlag "no-server").storeInfo namedServer = (g.storeInfo namedServer).offline := by
  simp only [Given.storeInfo, Given.server_withFlag]
  rfl

theorem SearchCommand.server_fill (command : SearchCommand) (settings : Settings) :
    (command.fill settings).server =
      command.server.orElse settings.search.server settings.search.noServer settings.serverUrl := by
  simp only [fill, (command.withEntity_fields _).2.2]

theorem SearchCommand.withEntity_server (command : SearchCommand) (server : ServerChoice)
    (entity : Option String) :
    { command with server := server }.withEntity entity =
      { command.withEntity entity with server := server } := by
  cases entity with
  | none => rfl
  | some entity =>
      simp only [withEntity]
      split <;> rfl

theorem Command.ReadFrom.noServer (h : ReadFrom namedServer rest name command)
    (hs : (command.fill settings).server.effective = some server) :
    ReadFrom namedServer ("--no-server" :: rest) name command.offline := by
  cases h with
  | @search g hg =>
      rw [Command.fill, Command.server, SearchCommand.server_fill] at hs
      rw [Command.offline, ← g.search_withFlag]
      exact .search (readAll_noServer (by decide) (by decide) hg (Given.noServer_not_mem hs))
  | load => cases hs
  | @storeInfo g hg =>
      rw [Command.offline, ← g.storeInfo_withFlag]
      exact .storeInfo (readAll_noServer (by decide) (by decide) hg (Given.noServer_not_mem hs))
  | entities => cases hs
  | serve => cases hs

theorem Command.fill_offline (command : Command) (settings : Settings) :
    command.offline.fill settings = (command.fill settings).offline := by
  cases command with
  | search command =>
      obtain ⟨_, _, hserver⟩ := command.withEntity_fields settings.search.entity
      have hentity : command.offline.withEntity settings.search.entity =
          { command.withEntity settings.search.entity with
            server := { command.server with disabled := true } } := command.withEntity_server _ _
      simp only [offline, fill, SearchCommand.fill, hentity, hserver]
      rfl
  | storeInfo command => rfl
  | _ => rfl

/-- The command line without a server prepares the same command without a server. -/
theorem prepare_offline (h : prepare env namedServer arguments disk = .ok command)
    (hs : command.server.effective = some server) :
    prepare env namedServer (offline arguments) disk = .ok command.offline := by
  obtain ⟨given, settings, hread, hsettings, rfl⟩ := prepare_eq_ok_iff.mp h
  obtain ⟨g, name, rest, hprogram, hhelp, hcommand⟩ := readArguments_eq_ok hread
  have hgiven := Command.read_eq_ok_iff.mpr (hcommand.noServer hs)
  refine prepare_eq_ok_iff.mpr ⟨given.offline, settings, ?_, hsettings, (given.fill_offline settings).symm⟩
  rw [readArguments, read_offline hprogram, ok_bind]
  split
  · next e =>
    cases e
    exact absurd rfl hhelp
  · next e =>
    cases e
    exact map_eq_ok_iff.mpr ⟨_, hgiven, rfl⟩
  · next e => cases e

/-! ## The same outcome -/

theorem run_of_prepare (h : prepare env namedServer arguments disk = .ok command) :
    run env network namedServer arguments disk = command.run env network disk := by
  have hget : (get : StateM Disk Disk) disk = (disk, disk) := rfl
  rw [run, Service.bind_apply, hget]
  dsimp only
  rw [h]

theorem SearchCommand.run_of_missing {command : SearchCommand} (h : command.request? = none) :
    command.run env network disk = (.failure .missingEntity, disk) := by
  rw [SearchCommand.run, h]
  rfl

theorem SearchCommand.run_of_request {command : SearchCommand} {request : SearchRequest}
    (h : command.request? = some request) :
    command.run env network disk =
      (searchOutcome command.format (answer env network command.server.effective request disk).1,
        (answer env network command.server.effective request disk).2) := by
  rw [SearchCommand.run, h]
  rfl

def infoOutcome (format : OutputFormat) : Except CommandError StoreSummary → Outcome
  | .error e => .failure e
  | .ok summary =>
      match format with
      | .text | .table => { output := textOfLines (storeLines summary) }
      | .json => { output := jsonLine summary.toJson }

theorem StoreInfoCommand.run_here {command : StoreInfoCommand} (hs : command.server.effective = none) :
    command.run env network disk =
      (infoOutcome command.format ((Store.info env command.store.config disk).1.mapError .store),
        (Store.info env command.store.config disk).2) := by
  rw [StoreInfoCommand.run, hs]
  rfl

theorem StoreInfoCommand.run_there {command : StoreInfoCommand} (hs : command.server.effective = some server) :
    command.run env network disk =
      (infoOutcome command.format
        ((Service.delegateStoreInfo network server command.store.config disk).1.mapError .client),
        (Service.delegateStoreInfo network server command.store.config disk).2) := by
  rw [StoreInfoCommand.run, hs]
  rfl

theorem SearchRequest.rejected_of_run {request : SearchRequest} {e : SearchError}
    (h : request.run env disk = (.error (.rejected e), disk')) : request.Rejected ∧ disk' = disk := by
  cases hc : request.compiled with
  | error e =>
      rw [request.run_of_rejected hc] at h
      cases h
      exact ⟨SearchRequest.rejected_iff.mpr ⟨_, hc⟩, rfl⟩
  | ok compiled =>
      rw [request.run_of_compiled hc] at h
      obtain ⟨herror, _⟩ := Prod.mk.inj h
      rcases hs : (request.search env compiled.1 compiled.2 disk).1 with e | results
      all_goals
        rw [hs] at herror
        cases herror

theorem answer_server (env : Surroundings) (network : Network) (server : String) (request : SearchRequest)
    (disk : Disk) :
    answer env network (some server) request disk =
      ((Service.delegateSearch network server request disk).1.mapError clientError,
        (Service.delegateSearch network server request disk).2) := rfl

/-- What is found, or why the query is refused, is the same from the service. -/
theorem answer_delegated {request : SearchRequest} {reply : Except CommandError SearchReply}
    (hn : network.LeadsTo server daemon default .search request.toJson) (hs : request.store = some config)
    (hp : disk.follow? daemon.workingDirectory config.path = disk.follow? env.workingDirectory config.path)
    (hlocal : answer env .unreachable none request disk = (reply, disk'))
    (hreply : ∀ e, reply ≠ .error (.store e)) :
    answer env network (some server) request disk = (reply, disk') := by
  rw [answer, Service.bind_apply] at hlocal
  rcases hrun : request.run env disk with ⟨(e | e) | results, d⟩
  · rw [hrun] at hlocal
    cases hlocal
    obtain ⟨hrejected, rfl⟩ := SearchRequest.rejected_of_run hrun
    rw [answer_server, Service.delegateSearch_of_rejected hn hrejected]
    rfl
  · rw [hrun] at hlocal
    cases hlocal
    exact absurd rfl (hreply e)
  · have hthere : request.run daemon disk = (.ok results, d) := (SearchRequest.run_relocated hs hp).trans hrun
    rw [hrun] at hlocal
    cases hlocal
    rw [answer_server, Service.delegateSearch_of_found hn hs hthere]
    rfl

theorem SearchCommand.run_delegated {command : SearchCommand} (hs : command.server.effective = some server)
    (hn : ∀ request, command.request? = some request →
      network.LeadsTo server daemon default .search request.toJson)
    (hp : disk.follow? daemon.workingDirectory command.store.config.path =
      disk.follow? env.workingDirectory command.store.config.path)
    (hlocal : command.offline.run env .unreachable disk = (outcome, disk'))
    (hending : outcome.ending = .done ∨ outcome.ending = .failed .rejected) :
    command.run env network disk = (outcome, disk') := by
  have hrequest : command.offline.request? = command.request? := rfl
  have hserver : command.offline.server.effective = none := rfl
  cases hr : command.request? with
  | none =>
      rw [run_of_missing hr]
      rw [run_of_missing (hrequest.trans hr)] at hlocal
      exact hlocal
  | some request =>
      have hstore : request.store = some command.store.config := by
        obtain ⟨_, _, rfl⟩ := Option.map_eq_some_iff.mp hr
        rfl
      rw [run_of_request (hrequest.trans hr), hserver] at hlocal
      rcases ha : answer env .unreachable none request disk with ⟨reply, d⟩
      rw [ha] at hlocal
      cases hlocal
      rw [run_of_request hr, hs, answer_delegated (hn request hr) hstore hp ha]
      · rfl
      · rintro e rfl
        rcases hending with h | h <;> cases h

theorem StoreInfoCommand.run_delegated {command : StoreInfoCommand}
    (hs : command.server.effective = some server)
    (hn : network.LeadsTo server daemon default .storeInfo command.store.config.toJson)
    (hp : disk.follow? daemon.workingDirectory command.store.config.path =
      disk.follow? env.workingDirectory command.store.config.path)
    (hnow : Store.info { env with now := daemon.now } command.store.config disk =
      Store.info env command.store.config disk)
    (hfits : ∀ summary d, Store.info env command.store.config disk = (.ok summary, d) → summary.Fits)
    (hlocal : command.offline.run env .unreachable disk = (outcome, disk'))
    (hending : outcome.ending = .done ∨ outcome.ending = .failed .rejected) :
    command.run env network disk = (outcome, disk') := by
  have hserver : command.offline.server.effective = none := rfl
  have hstore : command.offline.store = command.store := rfl
  rw [run_here hserver, hstore] at hlocal
  rw [run_there hs]
  rcases hinfo : Store.info env command.store.config disk with ⟨e | summary, d⟩
  · rw [hinfo] at hlocal
    cases hlocal
    rcases hending with h | h <;> cases h
  · have hsame : Store.info daemon command.store.config disk =
        Store.info { env with now := daemon.now } command.store.config disk := Store.info_relocated hp rfl
    have hthere := hsame.trans (hnow.trans hinfo)
    rw [hinfo] at hlocal
    rw [Service.delegateStoreInfo_of_ok hn hthere (hfits summary d hinfo)]
    exact hlocal

/-- A search that finds records or is refused, and a description of a store that succeeds, end in the same way
without a server and with a service that finds the same store under the path: with the same output, the same
error and the same disk, in every format. Of a store without metadata it is said that it was created now, so
that the service must be asked at the same time then. -/
theorem run_of_run_offline (h : prepare env namedServer arguments disk = .ok command)
    (hd : command.delegated? = some (server, config))
    (hn : ∀ route body, command.question? = some (route, body) →
      network.LeadsTo server daemon default route body)
    (hp : disk.follow? daemon.workingDirectory config.path = disk.follow? env.workingDirectory config.path)
    (hinfo : ∀ info, command = .storeInfo info →
      Store.info { env with now := daemon.now } config disk = Store.info env config disk ∧
        ∀ summary d, Store.info env config disk = (.ok summary, d) → summary.Fits)
    (hlocal : run env .unreachable namedServer (offline arguments) disk = (outcome, disk'))
    (hending : outcome.ending = .done ∨ outcome.ending = .failed .rejected) :
    run env network namedServer arguments disk = (outcome, disk') := by
  obtain ⟨_, hs, e⟩ := Option.map_eq_some_iff.mp hd
  cases e
  rw [run_of_prepare (prepare_offline h hs)] at hlocal
  rw [run_of_prepare h]
  cases command with
  | search command =>
      have hquestion request (hr : command.request? = some request) :
          (Command.search command).question? = some (.search, request.toJson) := by
        rw [Command.question?, hr]
        rfl
      exact SearchCommand.run_delegated hs (fun request hr => hn _ _ (hquestion request hr)) hp hlocal hending
  | storeInfo command =>
      obtain ⟨hnow, hfits⟩ := hinfo command rfl
      exact StoreInfoCommand.run_delegated hs (hn _ _ rfl) hp hnow hfits hlocal hending
  | load command => cases hs
  | entities command => cases hs
  | serve command => cases hs

/-- The network on which a service with these surroundings answers at every URL. -/
def networkOf (daemon : Surroundings) (default : StoreConfig) : Network := fun _ request disk =>
  (some (Service.respond daemon default request disk).1.received,
    (Service.respond daemon default request disk).2)

theorem leadsTo_networkOf (daemon : Surroundings) (default : StoreConfig) (server : String) (route : Route)
    (body : Json) : (networkOf daemon default).LeadsTo server daemon default route body := fun _ => rfl

def account : Record := .account ⟨"al", "al@x", true⟩

def accountMeta : StoreMeta := ⟨schemaVersion, "x", 3, 4⟩

/-- The account in the store `/s`, which a service finds that runs in another directory. -/
def accountDisk : Disk :=
  ⟨[(["home"], .directory), (["s"], .directory), (["s", "meta.json"], .text accountMeta.print),
    (["s", "records.jsonl"], .text ([account].flatMap Record.line))]⟩

theorem stands_accountDisk {directory : Location} (hplace : Place.ofPath directory "/s" = ⟨"/s", ["s"], [[]]⟩) :
    Backend.file.Stands (Place.ofPath directory "/s") ⟨[account], some accountMeta⟩ accountDisk := by
  rw [hplace]
  refine ⟨fun l hl => ?_, ⟨some _, rfl, rfl⟩, rfl, rfl⟩
  simp only [DirectoryStore.directories, List.mem_append, List.mem_singleton] at hl
  rcases hl with rfl | rfl <;> rfl

theorem follow_accountDisk :
    accountDisk.follow? [] "/s" = accountDisk.follow? ["home"] "/s" := by
  have hthere : accountDisk.follow? [] "/s" = some ["s"] := by decide
  have hhere : accountDisk.follow? ["home"] "/s" = some ["s"] := by decide
  exact hthere.trans hhere.symm

theorem supported_accountDisk : Ledger.Supported ⟨[account], some accountMeta⟩ := by
  rintro _ ⟨⟩
  rfl

/-- A service that runs elsewhere finds the account for a search as well. -/
theorem run_of_run_offline_account :
    let env : Surroundings := ⟨["home"], 1⟩
    let search := ["search", "accounts", "username:al", "--store-path", "/s", "--server", "http://d"]
    let found : Outcome := ⟨"account al: al@x (confirmed)\n", .done⟩
    run env .unreachable none (offline search) accountDisk = (found, accountDisk) ∧
      run env (networkOf ⟨[], 9⟩ {}) none search accountDisk = (found, accountDisk) := by
  intro env search found
  let command : SearchCommand :=
    ⟨some "accounts", some "username:al", false, .text, ⟨none, some "/s"⟩, ⟨some "http://d", false⟩⟩
  let request : SearchRequest := ⟨"accounts", "username:al", false, some ⟨.file, "/s"⟩⟩
  let filter : Filter := .restricted (.like ⟨["username"], .text⟩ "%al%" false)
  have hsearch : prepare env none search accountDisk = .ok (.search command) := by cbv
  have hparse : Query.parse .user "username:al" false = [⟨"username", ":", .text "al", false⟩] := by cbv
  have hcompile : Entity.accounts.compile "username:al" false = .ok (.accounts, filter) :=
    Entity.compile_of_parse hparse rfl
  have hcompiled : request.compiled = .ok (.accounts, filter) := hcompile
  have htyped := Entity.accounts.operatorsTyped.build (Entity.compile_eq_ok_iff.mp hcompile).2
  have hstands := @stands_accountDisk env.workingDirectory (by decide)
  have hopen : Store.openExisting env ⟨.file, "/s"⟩ accountDisk = _ :=
    Backend.Stands.openExisting env hstands supported_accountDisk (by decide)
  have hfind : request.search env .accounts filter accountDisk = (.ok [account], accountDisk) :=
    (Action.bind_of_ok hopen).trans ((hstands.find htyped).trans rfl)
  have hrun : request.run env accountDisk = (.ok [account], accountDisk) := by
    rw [request.run_of_compiled hcompiled, hfind]
    rfl
  have hanswer : answer env .unreachable none request accountDisk = (.ok (.found [account]), accountDisk) := by
    rw [answer, Service.bind_apply, hrun]
    rfl
  have hrequest : command.offline.request? = some request := rfl
  have hserver : command.offline.server.effective = none := rfl
  have hfound : run env .unreachable none (offline search) accountDisk = (found, accountDisk) := by
    rw [run_of_prepare (prepare_offline hsearch rfl)]
    refine (SearchCommand.run_of_request hrequest).trans ?_
    rw [hserver, hanswer]
    rfl
  exact ⟨hfound, run_of_run_offline hsearch rfl (fun route body _ => leadsTo_networkOf _ _ _ route body)
    follow_accountDisk (by rintro _ ⟨⟩) hfound (.inl rfl)⟩

/-- The service is asked at another time: the store keeps its metadata. -/
theorem run_of_run_offline_description :
    let env : Surroundings := ⟨["home"], 1⟩
    let storeInfo := ["store-info", "--store-path", "/s", "--server", "http://d"]
    let lines := ["backend      : file", "store_path   : /s", "schema       : 1", "tool_version : x",
      "created_at   : 1970-01-01T00:00:03Z", "updated_at   : 1970-01-01T00:00:04Z",
      "account      : 1", "application  : 0", "user         : 0"]
    let described : Outcome := ⟨textOfLines (lines.map String.toList), .done⟩
    run env .unreachable none (offline storeInfo) accountDisk = (described, accountDisk) ∧
      run env (networkOf ⟨[], 9⟩ {}) none storeInfo accountDisk = (described, accountDisk) := by
  intro env storeInfo lines described
  let command : StoreInfoCommand := ⟨.text, ⟨none, some "/s"⟩, ⟨some "http://d", false⟩⟩
  have hstoreInfo : prepare env none storeInfo accountDisk = .ok (.storeInfo command) := by cbv
  let config : StoreConfig := ⟨.file, "/s"⟩
  have hstands : config.backend.Stands (config.place env) ⟨[account], some accountMeta⟩ accountDisk :=
    stands_accountDisk (by decide)
  let summary : StoreSummary :=
    ⟨.file, "/s", none, [("account", 1), ("application", 0), ("user", 0)], some "1", some "x",
      some "1970-01-01T00:00:03Z", some "1970-01-01T00:00:04Z"⟩
  have hsummary : Ledger.summary config accountMeta none ⟨[account], some accountMeta⟩ = summary := by decide
  have hinfo : Store.info env config accountDisk = (.ok summary, accountDisk) :=
    (hstands.info env supported_accountDisk (by decide)).trans (congrArg (Except.ok ·, accountDisk) hsummary)
  have hserver : command.offline.server.effective = none := rfl
  have hlocal : command.offline.run env .unreachable accountDisk = (described, accountDisk) := by
    have hstore : command.offline.store.config = config := rfl
    have hlines : storeLines summary = lines.map String.toList := by cbv
    have hshown : infoOutcome .text (.ok summary) = described :=
      congrArg (fun lines => Outcome.mk (textOfLines lines) .done) hlines
    rw [StoreInfoCommand.run_here hserver, hstore, hinfo]
    exact congrArg (·, accountDisk) hshown
  have hfits : summary.Fits := ⟨by rintro _ ⟨⟩, by simp [summary, UInt64.size]⟩
  have hkeeps : config.backend.Keeps (config.place env) accountMeta accountDisk := hstands.keeps rfl rfl
  have hthere : command.run env (networkOf ⟨[], 9⟩ {}) accountDisk = (described, accountDisk) := by
    refine StoreInfoCommand.run_delegated rfl (leadsTo_networkOf _ _ _ _ _) follow_accountDisk
      (Store.info_at_any_time hkeeps 9) (fun _ _ h => ?_) hlocal (.inl rfl)
    cases hinfo.symm.trans h
    exact hfits
  exact ⟨(run_of_prepare (prepare_offline hstoreInfo rfl)).trans hlocal,
    (run_of_prepare hstoreInfo).trans hthere⟩

end RecordSearch.CommandLine

import Mathlib
import RecordSearch.Proofs.CommandLine.Delegation

/-!
# Options and settings

Which of them a command follows: an option that is written counts more than the settings, except that a
value that is the usual one cannot be told from one that is not written, and that settings without a server
turn away a server that is written.
-/

namespace RecordSearch.CommandLine

open Service (Response Route)

variable {env : Surroundings} {namedServer : Option String} {name word value server : String}
  {arguments rest : List String} {disk : Disk} {command : Command} {g : Given} {settings : Settings}

/-! ## Options -/

def StoreChoice.options (choice : StoreChoice) : List (String × Option String) :=
  [("store-backend", choice.backend.map Backend.name), ("store-path", choice.path)]

/-- The options of a command, each with its value if it has one. -/
def Command.options : Command → List (String × Option String)
  | .search command =>
      ("format", some command.format.name) :: ("server", command.server.url) :: command.store.options
  | .load command => command.store.options
  | .storeInfo command =>
      ("format", some command.format.name) :: ("server", command.server.url) :: command.store.options
  | .entities command => [("format", some command.format.name)]
  | .serve command => ("addr", some command.address) :: command.store.options

def Settings.options (settings : Settings) : Command → List (String × Option String)
  | .search _ =>
      ("format", settings.search.format.map OutputFormat.name) ::
        ("server", settings.search.server.or settings.serverUrl) :: settings.search.store.options
  | .load _ => settings.load.options
  | .storeInfo _ =>
      ("format", settings.storeInfo.format.map OutputFormat.name) ::
        ("server", settings.storeInfo.server.or settings.serverUrl) :: settings.storeInfo.store.options
  | .entities _ => [("format", none)]
  | .serve _ => ("addr", settings.serve.address) :: settings.serve.store.options

def Settings.noServer (settings : Settings) : Command → Bool
  | .search _ => settings.search.noServer.getD false
  | .storeInfo _ => settings.storeInfo.noServer.getD false
  | _ => false

/-- The values that options have if they are not written. -/
def usual : List (String × String) := [("format", OutputFormat.text.name), ("addr", defaultAddress)]

def valueIn (name : String) (options : List (String × Option String)) : Option String :=
  (options.lookup name).join

def optionNames : List String := ["format", "store-backend", "store-path", "server", "addr"]

/-! ## Reading -/

theorem map_find?_eq {α : Type} {f : α → String} {as : List α} (h : value ∈ as.map f) :
    (as.find? fun a => f a = value).map f = some value := by
  obtain ⟨a, ha, rfl⟩ := List.mem_map.mp h
  cases hf : as.find? fun b => f b = f a with
  | none => exact absurd (List.find?_eq_none.mp hf a ha) (by simp)
  | some b => simpa using List.find?_some hf

theorem valueIn_of_forall {f : String → Option String} {options : List (String × Option String)}
    (h : ∀ o ∈ options, o.2 = f o.1) (hn : name ∈ options.map (·.1)) : valueIn name options = f name := by
  induction options with
  | nil => cases hn
  | cons o options ih =>
      obtain ⟨ho, hrest⟩ := List.forall_mem_cons.mp h
      rw [valueIn, List.lookup_cons]
      by_cases e : name = o.1
      · rw [beq_iff_eq.mpr e, e]
        exact ho
      · rw [beq_eq_false_iff_ne.mpr e]
        exact ih hrest ((List.mem_cons.mp hn).resolve_left e)

def Given.value? (g : Given) (namedServer : Option String) (name : String) : Option String :=
  match name with
  | "format" => some g.format.name
  | "store-backend" => g.store.backend.map Backend.name
  | "store-path" => g.store.path
  | "server" => (g.server namedServer).url
  | "addr" => some ((g.options.lookup "addr").getD defaultAddress)
  | _ => none

/-- The values that options may have. -/
def kinds : List (String × ValueKind) := formatOption :: serverOption :: ("addr", .any) :: storeOptions

theorem Given.value?_of_lookup {kind : ValueKind} (hn : name ∈ optionNames)
    (hk : kinds.lookup name = some kind) (ha : kind.accepts value = true) (hl : g.options.lookup name = some value) :
    g.value? namedServer name = some value := by
  simp only [optionNames, List.mem_cons, List.not_mem_nil, or_false] at hn
  rcases hn with rfl | rfl | rfl | rfl | rfl
  · cases hk
    obtain ⟨format, hf, hname⟩ := Option.map_eq_some_iff.mp (map_find?_eq (of_decide_eq_true ha))
    have hformat : g.format = format := by
      rw [Given.format, hl, Option.bind_some, OutputFormat.ofName?, hf, Option.getD_some]
    exact congrArg some ((congrArg OutputFormat.name hformat).trans hname)
  · cases hk
    have hname := map_find?_eq (of_decide_eq_true ha)
    simpa [value?, store, hl, Backend.ofName?] using hname
  · simp [value?, store, hl]
  · simp [value?, server, hl]
  · simp [value?, hl]

/-- No command has an option of these names that is a flag or has values of its own. -/
theorem signatures_plain : ∀ sig ∈ signatures.map (·.2), sig.hasCommands = false ∧
    ∀ name ∈ optionNames, name ∉ sig.flags ∧
      (sig.options.lookup name = none ∨ sig.options.lookup name = kinds.lookup name) := by
  decide

theorem valueIn_of_written (namedServer : Option String) {sig : Signature}
    {options : List (String × Option String)}
    (hsig : sig ∈ signatures.map (·.2)) (hg : sig.readAll rest = .ok g)
    (hkeys : options.map (·.1) = (sig.options.map (·.1)).filter fun n => n ∈ optionNames)
    (hall : ∀ o ∈ options, o.2 = g.value? namedServer o.1) (hw : Written name value rest)
    (hn : name ∈ optionNames) : valueIn name options = some value := by
  obtain ⟨⟨g', left⟩, hread, h⟩ := bind_eq_ok_iff.mp hg
  cases h
  obtain ⟨hcommands, hplain⟩ := signatures_plain sig hsig
  obtain ⟨hflag, hkind⟩ := hplain name hn
  have hnames : ∀ n ∈ optionNames, IsName n := by decide
  obtain ⟨kind, hk, ha, hl⟩ := hw.lookup (hnames name hn) hcommands hflag (Signature.reads_of_read hread)
  have hkinds : kinds.lookup name = some kind := by
    rcases hkind with hkind | hkind
    · rw [hkind] at hk
      cases hk
    · exact hkind.symm.trans hk
  have hmem : name ∈ options.map (·.1) := by
    rw [hkeys, List.mem_filter]
    exact ⟨Content.mem_names_of_lookup hk, by simpa using hn⟩
  exact (valueIn_of_forall hall hmem).trans (Given.value?_of_lookup hn hkinds ha hl)

/-- An option that is written has the value that is written until the settings are looked at. -/
theorem Command.ReadFrom.valueIn (h : ReadFrom namedServer rest word command) (hw : Written name value rest)
    (hn : name ∈ optionNames) : valueIn name command.options = some value := by
  cases h with
  | search hg =>
      refine valueIn_of_written namedServer (by decide) hg rfl ?_ hw hn
      simp [options, StoreChoice.options, Given.search, Given.value?]
  | load hg _ =>
      refine valueIn_of_written namedServer (by decide) hg rfl ?_ hw hn
      simp [options, StoreChoice.options, Given.value?]
  | storeInfo hg =>
      refine valueIn_of_written namedServer (by decide) hg rfl ?_ hw hn
      simp [options, StoreChoice.options, Given.storeInfo, Given.value?]
  | entities hg =>
      refine valueIn_of_written namedServer (by decide) hg rfl ?_ hw hn
      simp [options, Given.value?]
  | serve hg =>
      refine valueIn_of_written namedServer (by decide) hg rfl ?_ hw hn
      simp [options, StoreChoice.options, Given.serve, Given.value?]

/-! ## Filling in -/

/-- One value from an option and a setting: the setting takes the place of the usual value. -/
def Merges (name : String) (option setting merged : Option String) : Prop :=
  ∀ value, option = some value →
    merged = some (if usual.lookup name = some value then setting.getD value else value)

inductive Merged : List (String × Option String) → List (String × Option String) →
    List (String × Option String) → Prop where
  | nil : Merged [] [] []
  | cons {name : String} {option setting merged : Option String}
      {options settings all : List (String × Option String)} (h : Merges name option setting merged)
      (hrest : Merged options settings all) :
      Merged ((name, option) :: options) ((name, setting) :: settings) ((name, merged) :: all)

theorem Merged.valueIn {options settings all : List (String × Option String)}
    (h : Merged options settings all) :
    Merges name (valueIn name options) (valueIn name settings) (valueIn name all) := by
  induction h with
  | nil => rintro _ ⟨⟩
  | @cons key _ _ _ _ _ _ h _ ih =>
      simp only [CommandLine.valueIn, List.lookup_cons] at ih ⊢
      by_cases e : name = key
      · rw [beq_iff_eq.mpr e, e]
        exact h
      · rw [beq_eq_false_iff_ne.mpr e]
        exact ih

theorem merges_or (hn : usual.lookup name = none) (option setting : Option String) :
    Merges name option setting (option.or setting) := by
  rintro value rfl
  rw [hn]
  rfl

theorem merges_format (format : OutputFormat) (setting : Option OutputFormat) :
    Merges "format" (some format.name) (setting.map OutputFormat.name)
      (some (format.orElse setting).name) := by
  rintro value ⟨⟩
  cases format <;> cases setting <;> simp [usual, OutputFormat.orElse, OutputFormat.name]

theorem merged_store (choice settings : StoreChoice) :
    Merged choice.options settings.options (choice.orElse settings).options := by
  have hbackend : (choice.backend.or settings.backend).map Backend.name =
      (choice.backend.map Backend.name).or (settings.backend.map Backend.name) := Option.map_or ..
  refine .cons ?_ (.cons (merges_or (by decide) _ _) .nil)
  rw [StoreChoice.orElse, hbackend]
  exact merges_or (by decide) _ _

theorem merges_server (choice : ServerChoice) (named url : Option String) (noServer : Option Bool) :
    Merges "server" choice.url (named.or url) (choice.orElse named noServer url).url :=
  merges_or (by decide) _ _

theorem merges_address (command : ServeCommand) (settings : Settings) :
    Merges "addr" (some command.address) settings.serve.address (some (command.fill settings).address) := by
  have husual : usual.lookup "addr" = some defaultAddress := rfl
  rintro value ⟨⟩
  rw [husual, ServeCommand.fill]
  by_cases h : command.address = defaultAddress
  · rw [if_pos (congrArg some h.symm), if_pos h, h]
  · rw [if_neg fun e => h (Option.some.inj e).symm, if_neg h]

theorem merged_fill (command : Command) (settings : Settings) :
    Merged command.options (settings.options command) (command.fill settings).options := by
  cases command with
  | search command =>
      obtain ⟨hf, hs, hv⟩ := command.withEntity_fields settings.search.entity
      simp only [Command.fill, SearchCommand.fill, Command.options, Settings.options, hf, hs, hv]
      exact .cons (merges_format _ _) (.cons (merges_server _ _ _ _) (merged_store _ _))
  | load command => exact merged_store _ _
  | storeInfo command =>
      exact .cons (merges_format _ _) (.cons (merges_server _ _ _ _) (merged_store _ _))
  | entities command =>
      refine .cons ?_ .nil
      rintro value ⟨⟩
      rw [Option.getD_none, ite_self]
  | serve command => exact .cons (merges_address command settings) (merged_store _ _)

/-! ## Stores and servers -/

theorem valueIn_backend (command : Command) :
    valueIn "store-backend" command.options = command.store.backend.map Backend.name := by
  cases command <;> rfl

theorem valueIn_path (command : Command) : valueIn "store-path" command.options = command.store.path := by
  cases command <;> rfl

theorem valueIn_server (command : Command) : valueIn "server" command.options = command.server.url := by
  cases command <;> rfl

theorem backend_config {choice : StoreChoice} (h : choice.backend.map Backend.name = some value) :
    choice.config.backend.name = value := by
  obtain ⟨backend, hbackend, hname⟩ := Option.map_eq_some_iff.mp h
  rw [StoreChoice.config, hbackend, Option.getD_some]
  exact hname

theorem path_config {choice : StoreChoice} (h : choice.path = some value) : choice.config.path = value := by
  simp only [StoreChoice.config, h, Option.getD_some]

/-- The run sends the question of the command to the server and nothing else, and all that it gives comes from
the response. A command without a question is a search that lacks its entity. -/
def Command.AsksOnly (env : Surroundings) (server : String) (command : Command) : Prop :=
  match command.question? with
  | none => ∀ network disk, command.run env network disk = (.failure .missingEntity, disk)
  | some (route, body) => ∃ outcome : Option Response → Outcome, ∀ network disk,
      command.run env network disk =
        (outcome (network (route.url server) (route.request body) disk).1,
          (network (route.url server) (route.request body) disk).2)

/-- The run does not depend on any server. -/
def Command.AsksNobody (env : Surroundings) (command : Command) : Prop :=
  ∀ network network', command.run env network = command.run env network'

theorem Command.asksOnly (h : command.server.effective = some server) : command.AsksOnly env server := by
  cases command with
  | search command =>
      have hs : command.server.effective = some server := h
      cases hr : command.request? with
      | none =>
          rw [AsksOnly, question?, hr]
          exact fun network disk => SearchCommand.run_of_missing hr
      | some request =>
          rw [AsksOnly, question?, hr]
          refine ⟨fun response => searchOutcome command.format ((response.elim
            (.error (.unsent (Route.search.url server)))
            (Service.readReply (Route.search.url server))).mapError clientError), fun network disk => ?_⟩
          rw [Command.run, SearchCommand.run_of_request hr, hs, answer_server, Service.delegateSearch_apply]
  | storeInfo command =>
      have hs : command.server.effective = some server := h
      refine ⟨fun response => infoOutcome command.format ((response.elim
        (.error (.unsent (Route.storeInfo.url server)))
        (Service.decode StoreSummary.ofJson? (Route.storeInfo.url server))).mapError .client),
        fun network disk => ?_⟩
      rw [Command.run, StoreInfoCommand.run_there hs, Service.delegateStoreInfo_apply]
  | load command => cases h
  | entities command => cases h
  | serve command => cases h

theorem Command.asksNobody (h : command.server.effective = none) : command.AsksNobody env := by
  intro network network'
  cases command with
  | search command =>
      have hs : command.server.effective = none := h
      have hanswer (request : SearchRequest) :
          answer env network none request = answer env network' none request := rfl
      cases hr : command.request? with
      | none => simp only [Command.run, SearchCommand.run, hr]
      | some request => simp only [Command.run, SearchCommand.run, hr, hs, hanswer request]
  | storeInfo command =>
      have hs : command.server.effective = none := h
      simp only [Command.run, StoreInfoCommand.run, hs]
  | load command => rfl
  | entities command => rfl
  | serve command => rfl

theorem Command.ReadFrom.raised (h : ReadFrom namedServer rest word command)
    (hd : command.server.disabled = true) : Raised "no-server" rest := by
  have hraised {sig : Signature} {g : Given} (hg : sig.readAll rest = .ok g)
      (hd : (g.server namedServer).disabled = true) : Raised "no-server" rest := by
    obtain ⟨⟨g', left⟩, hread, hg⟩ := bind_eq_ok_iff.mp hg
    cases hg
    exact (Signature.reads_of_read hread).raised (of_decide_eq_true hd) List.not_mem_nil
  cases h with
  | search hg => exact hraised hg hd
  | load => cases hd
  | storeInfo hg => exact hraised hg hd
  | entities => cases hd
  | serve => cases hd

theorem disabled_fill (command : Command) (settings : Settings) :
    (command.fill settings).server.disabled = (command.server.disabled || settings.noServer command) := by
  cases command with
  | search command => exact congrArg ServerChoice.disabled (command.server_fill settings)
  | storeInfo command => rfl
  | load command => rfl
  | entities command => rfl
  | serve command => rfl

theorem effective_fill (hurl : (command.fill settings).server.url = some server)
    (hd : command.server.disabled = false) :
    (command.fill settings).server.effective = if settings.noServer command then none else some server := by
  rw [ServerChoice.effective, disabled_fill, hd, Bool.false_or, hurl]

/-! ## What is written -/

/-- An option that is written has the value that is written once the settings are filled in, unless that is
the usual value, which the settings then replace. A store that is written is the one that is used. A server
that is written is asked, and no other, unless it is turned away on the command line or in the settings. -/
theorem prepare_written {given : Command} (hread : readArguments namedServer arguments = .ok (some given))
    (hs : Settings.discover env.workingDirectory disk = .ok settings) (hw : Written name value arguments)
    (hn : name ∈ optionNames) :
    ∃ command, prepare env namedServer arguments disk = .ok command ∧
      valueIn name command.options =
        some (if usual.lookup name = some value then (valueIn name (settings.options given)).getD value
          else value) ∧
      (name = "store-backend" → command.store.config.backend.name = value) ∧
      (name = "store-path" → command.store.config.path = value) ∧
      (name = "server" → ¬ Raised "no-server" arguments →
        if settings.noServer given then command.AsksNobody env else command.AsksOnly env value) := by
  obtain ⟨g, word, rest, hprogram, _, hcommand⟩ := readArguments_eq_ok hread
  have hprogram := Signature.reads_of_read hprogram
  have hnames : ∀ n ∈ optionNames, IsName n ∧ n ∉ programSignature.options.map (·.1) ∧
      n ∉ programSignature.flags := by decide
  obtain ⟨hname, hoption, hflag⟩ := hnames name hn
  have hgiven := hcommand.valueIn (hw.after_command hname hoption hflag hprogram) hn
  have hfilled := (merged_fill given settings).valueIn value hgiven
  refine ⟨given.fill settings, prepare_eq_ok_iff.mpr ⟨given, settings, hread, hs, rfl⟩, hfilled, ?_, ?_, ?_⟩
  · rintro rfl
    rw [valueIn_backend] at hfilled
    exact backend_config hfilled
  · rintro rfl
    rw [valueIn_path] at hfilled
    exact path_config hfilled
  · rintro rfl hraised
    rw [valueIn_server] at hfilled
    have hd : given.server.disabled = false := Bool.eq_false_iff.mpr fun hd =>
      hraised ((hcommand.raised hd).of_after_command hprogram)
    have heffective := effective_fill hfilled hd
    split at heffective
    · next h =>
      rw [if_pos h]
      exact Command.asksNobody heffective
    · next h =>
      rw [if_neg h]
      exact Command.asksOnly heffective

def settingsDisk (text : String) : Disk :=
  ⟨[([".appsearch"], .directory), ([".appsearch", "config.toml"], .text text.toList)]⟩

theorem prepare_written_server :
    let env : Surroundings := ⟨[], 0⟩
    let arguments := ["search", "users", "--format", "table", "--server=http://d"]
    let disk := settingsDisk "[search]\nformat = \"json\"\nserver = \"http://other\"\n"
    ∃ command, prepare env none arguments disk = .ok command ∧
      valueIn "server" command.options = some "http://d" ∧ command.AsksOnly env "http://d" := by
  intro env arguments disk
  have hread : readArguments none arguments = .ok (some (.search ⟨some "users", none, false, .table, {},
      ⟨some "http://d", false⟩⟩)) := by cbv
  have hs : Settings.discover env.workingDirectory disk =
      .ok { search := { format := some .json, server := some "http://other" } } := by cbv
  have hw : Written "server" "http://d" arguments :=
    .later (by decide) (.later (by decide) (.later (by decide) (.later (by decide) (.joined _))))
  obtain ⟨command, hp, hvalue, _, _, hasks⟩ := prepare_written hread hs hw (by decide)
  exact ⟨command, hp, hvalue, hasks rfl (by decide)⟩

/-- A format or an address that is written and is the usual one gives way to the settings, and a server that
is written to settings without a server. -/
theorem prepare_loses_written :
    (∃ command, prepare ⟨[], 0⟩ none ["search", "users", "--format", "text"]
        (settingsDisk "[search]\nformat = \"json\"\n") = .ok command ∧
      valueIn "format" command.options = some "json") ∧
    (∃ command, prepare ⟨[], 0⟩ none ["serve", "--addr", "127.0.0.1:7878"]
        (settingsDisk "[serve]\naddr = \"0.0.0.0:9999\"\n") = .ok command ∧
      valueIn "addr" command.options = some "0.0.0.0:9999") ∧
    ∃ command, prepare ⟨[], 0⟩ none ["search", "users", "--server", "http://d"]
        (settingsDisk "[search]\nno_server = true\n") = .ok command ∧ command.AsksNobody ⟨[], 0⟩ := by
  refine ⟨⟨.search ⟨some "users", none, false, .json, {}, {}⟩, ?_, rfl⟩,
    ⟨.serve ⟨"0.0.0.0:9999", {}⟩, ?_, rfl⟩,
    ⟨.search ⟨some "users", none, false, .text, {}, ⟨some "http://d", true⟩⟩, ?_, Command.asksNobody rfl⟩⟩
  · cbv
  · cbv
  · cbv

end RecordSearch.CommandLine

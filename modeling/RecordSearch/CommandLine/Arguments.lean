import RecordSearch.Text.Segments

/-!
# Arguments

The general form of a command line: options by name with or without a value, words in order, and two
hyphens after which everything is a word. A value stands after an equals sign or is the next argument,
which must not begin with a hyphen then unless it is one. No option may be repeated. The first fault or
request for help ends the reading.
-/

namespace RecordSearch.CommandLine

inductive ValueKind where
  | any
  | nonempty
  | oneOf (words : List String)
  deriving DecidableEq, Repr

def ValueKind.accepts : ValueKind → String → Bool
  | .any, _ => true
  | .nonempty, value => value ≠ ""
  | .oneOf words, value => value ∈ words

structure Signature where
  /-- What help says first. -/
  about : String
  /-- Options without a value. -/
  flags : List String := []
  /-- Options with a value. -/
  options : List (String × ValueKind) := []
  words : List ValueKind := []
  /-- Whether the first word begins a command of its own. -/
  hasCommands : Bool := false
  deriving DecidableEq, Repr

inductive Refusal where
  /-- Help is asked for; its first line. -/
  | help (about : String)
  | misuse
  deriving DecidableEq, Repr

structure Given where
  flags : List String := []
  options : List (String × String) := []
  words : List String := []
  deriving DecidableEq, Repr

inductive Form where
  /-- Two hyphens. -/
  | separator
  /-- A name after two hyphens, and the value after an equals sign. -/
  | long (name : String) (value : Option String)
  /-- Letters after one hyphen. -/
  | short (letters : List Char)
  | word
  deriving DecidableEq, Repr

def Form.of (argument : String) : Form :=
  match argument.toList with
  | ['-', '-'] => .separator
  | '-' :: '-' :: s =>
      match Text.segments '=' s with
      | [] | [_] => .long (String.ofList s) none
      | name :: value => .long (String.ofList name) (some (String.ofList (Text.join '=' value)))
  | '-' :: c :: s => .short (c :: s)
  | _ => .word

namespace Signature

/-- Adds a flag, which must be known and new. -/
def addFlag (sig : Signature) (name : String) (g : Given) : Except Refusal Given :=
  if name ∈ sig.flags ∧ name ∉ g.flags then .ok { g with flags := g.flags ++ [name] }
  else .error .misuse

/-- Adds an option, which must be known and new and may have the value. -/
def addOption (sig : Signature) (name value : String) (g : Given) : Except Refusal Given :=
  match sig.options.lookup name with
  | some kind =>
      if kind.accepts value ∧ (g.options.lookup name).isNone then
        .ok { g with options := g.options ++ [(name, value)] }
      else .error .misuse
  | none => .error .misuse

/-- Adds a word in the next place. -/
def addWord (sig : Signature) (g : Given) (word : String) : Except Refusal Given :=
  match sig.words[g.words.length]? with
  | some kind =>
      if kind.accepts word then .ok { g with words := g.words ++ [word] } else .error .misuse
  | none => .error .misuse

/-- Reads arguments up to the word that begins a command, and gives the arguments from there on. -/
def read (sig : Signature) (g : Given) : List String → Except Refusal (Given × List String)
  | [] => .ok (g, [])
  | argument :: rest =>
      match Form.of argument with
      | .separator => do .ok (← rest.foldlM sig.addWord g, [])
      | .short letters => .error (if letters.head? = some 'h' then .help sig.about else .misuse)
      | .long "help" none => .error (.help sig.about)
      | .long name (some value) => do sig.read (← sig.addOption name value g) rest
      | .long name none =>
          if name ∈ sig.options.map (·.1) then
            match rest with
            | [] => .error .misuse
            | value :: rest =>
                if Form.of value = .word then do sig.read (← sig.addOption name value g) rest
                else .error .misuse
          else do sig.read (← sig.addFlag name g) rest
      | .word =>
          if sig.hasCommands then .ok (g, argument :: rest)
          else do sig.read (← sig.addWord g argument) rest

def readAll (sig : Signature) (arguments : List String) : Except Refusal Given := do
  let (g, _) ← sig.read {} arguments
  .ok g

end Signature

end RecordSearch.CommandLine

import RecordSearch.Toml.Lexeme

/-!
# Reading configuration documents

A document is a list of statements: headers, which open tables, and keys with their values, which go into
the table opened last. A key must not be set twice and a table not be opened twice. A header may add
tables to any table, but a key with dots only passes through tables that no header opened, and sets
nothing in a table that it does not open itself.
-/

namespace RecordSearch.Toml

/-! ## Tables -/

def replace (name : String) (v : Toml) (ms : Members) : Members :=
  ms.map fun m => if m.1 = name then (name, v) else m

/-- Changes the table at the end of a path. Missing tables on the way are made; of tables of one name
the last is meant. -/
def changeAt? (dotted : Bool) (change : TableOrigin → Members → Option Members) :
    List String → TableOrigin → Members → Option Members
  | [], origin, ms => change origin ms
  | name :: path, _, ms =>
      match ms.lookup name with
      | none => do
          let origin : TableOrigin := if dotted then .dotted else .implied
          let inner ← changeAt? dotted change path origin []
          some (ms ++ [(name, .table origin inner)])
      | some (.table .braces _) => none
      | some (.table origin inner) => do
          if dotted ∧ origin = .header then none
          let inner ← changeAt? dotted change path origin inner
          some (replace name (.table origin inner) ms)
      | some (.tables ts) => do
          let inner ← changeAt? dotted change path .header (ts.getLast?.getD [])
          some (replace name (.tables (ts.dropLast ++ [inner])) ms)
      | some _ => none

/-- Sets a member for the first time. -/
def assign? (path : List String) (name : String) (v : Toml) (ms : Members) : Option Members :=
  let set (origin : TableOrigin) (ms : Members) : Option Members :=
    if path ≠ [] ∧ origin ≠ .dotted then none
    else if (ms.lookup name).isSome then none
    else some (ms ++ [(name, v)])
  changeAt? true set path .header ms

/-- Opens a table that no header has opened before. -/
def openTable? (name : String) (ms : Members) : Option Members :=
  match ms.lookup name with
  | none => some (ms ++ [(name, .table .header [])])
  | some (.table .implied inner) => some (replace name (.table .header inner) ms)
  | some _ => none

def openElement? (name : String) (ms : Members) : Option Members :=
  match ms.lookup name with
  | none => some (ms ++ [(name, .tables [[]])])
  | some (.tables ts) => some (replace name (.tables (ts ++ [[]])) ms)
  | some _ => none

/-! ## Values -/

/-- A value that is neither a text nor composed of others. -/
def scalarValue? (s : List Char) : Option (Toml × List Char) :=
  match s with
  | 't' :: 'r' :: 'u' :: 'e' :: rest => some (.boolean true, rest)
  | 'f' :: 'a' :: 'l' :: 's' :: 'e' :: rest => some (.boolean false, rest)
  | s =>
      match dateTimeRest? s with
      | some rest => some (.dateTime (s.take (s.length - rest.length)), rest)
      | none =>
          match floatRest? s with
          | some rest => some (.float (s.take (s.length - rest.length)), rest)
          | none => (integer? s).map fun (n, rest) => (.integer n, rest)

mutual

/-- Reads a value. `depth` is the number of levels that may still be opened; `fuel` bounds the number of
steps, of which no character takes more than two. -/
def readValue? (depth : Nat) : Nat → List Char → Option (Toml × List Char)
  | 0, _ => none
  | fuel + 1, s =>
      match s with
      | '[' :: rest =>
          if depth = 0 then none
          else (readElements? (depth - 1) fuel rest).map fun (xs, rest) => (.array xs, rest)
      | '\x7b' :: rest =>
          if depth = 0 then none
          else match skipGaps rest with
            | '\x7d' :: rest => some (.table .braces [], rest)
            | rest =>
                (readMembers? (depth - 1) fuel [] rest).map fun (ms, rest) => (.table .braces ms, rest)
      | s =>
          match readString? s with
          | some (t, rest) => some (.string t, rest)
          | none => scalarValue? s

/-- Reads the elements of an array, of which the last may have a comma after it, and the closing
bracket. -/
def readElements? (depth : Nat) : Nat → List Char → Option (List Toml × List Char)
  | 0, _ => none
  | fuel + 1, s =>
      match skipLines false s with
      | ']' :: rest => some ([], rest)
      | s => do
          let (v, rest) ← readValue? depth fuel s
          match skipLines false rest with
          | ',' :: rest => (readElements? depth fuel rest).map fun (vs, rest) => (v :: vs, rest)
          | ']' :: rest => some ([v], rest)
          | _ => none

/-- Reads one or more members of a table on one line, adding them to those before, and the closing
brace. -/
def readMembers? (depth : Nat) : Nat → Members → List Char → Option (Members × List Char)
  | 0, _, _ => none
  | fuel + 1, ms, s => do
      let (path, name, rest) ← key? s
      let rest ← after? '=' rest
      let (v, rest) ← readValue? depth fuel (skipGaps rest)
      let ms ← assign? path name v ms
      match skipGaps rest with
      | ',' :: rest => readMembers? depth fuel ms rest
      | '\x7d' :: rest => some (ms, rest)
      | _ => none

end

def value? (s : List Char) : Option (Toml × List Char) :=
  readValue? maxDepth (2 * s.length + 2) (skipGaps s)

/-! ## Documents -/

inductive Statement where
  /-- The header of a table. -/
  | table (path : List String) (name : String)
  /-- The header of one of several tables of a name. -/
  | element (path : List String) (name : String)
  | assignment (path : List String) (name : String) (value : Toml)
  deriving Repr

/-- Reads one statement with the end of its line; the text begins with neither a gap nor a comment. -/
def statement? (s : List Char) : Option (Statement × List Char) :=
  match s with
  | '[' :: '[' :: s => do
      let (path, name, rest) ← key? s
      let rest ← after? ']' rest
      let rest ← after? ']' rest
      some (.element path name, ← lineEnd? rest)
  | '[' :: s => do
      let (path, name, rest) ← key? s
      let rest ← after? ']' rest
      some (.table path name, ← lineEnd? rest)
  | s => do
      let (path, name, rest) ← key? s
      let rest ← after? '=' rest
      let (v, rest) ← value? rest
      some (.assignment path name v, ← lineEnd? rest)

/-- The statements of a document. Each takes at least one character, which bounds their number. -/
def statements? : Nat → List Char → Option (List Statement)
  | 0, _ => none
  | fuel + 1, s =>
      match skipLines false s with
      | [] => some []
      | s => do
          let (statement, rest) ← statement? s
          (statements? fuel rest).map (statement :: ·)

/-- The document up to some statement, and the path of the table opened last. -/
structure State where
  members : Members := []
  current : List String := []

def State.add? (state : State) : Statement → Option State
  | .table path name => do
      let ms ← changeAt? false (fun _ => openTable? name) path .header state.members
      some ⟨ms, path ++ [name]⟩
  | .element path name => do
      let ms ← changeAt? false (fun _ => openElement? name) path .header state.members
      some ⟨ms, path ++ [name]⟩
  | .assignment path name v => do
      let ms ← changeAt? false (fun _ => assign? path name v) state.current .header state.members
      some ⟨ms, state.current⟩

/-- Reads a document, before which a byte order mark may stand. -/
def parse? (s : List Char) : Option Members := do
  let s := match s with
    | '\ufeff' :: rest => rest
    | rest => rest
  let s := plainLines s
  let statements ← statements? (s.length + 1) s
  let state ← statements.foldlM State.add? {}
  some state.members

end RecordSearch.Toml

import RecordSearch.Json.Lexeme

/-!
# Reading JSON

The reader of complete JSON texts. Arrays and objects may be nested up to 127 deep; numbers beyond the
range of doubles and escapes that stand for half a character are refused.
-/

namespace RecordSearch.Json

/-- How deep arrays and objects may be nested inside each other. -/
def maxDepth : Nat := 127

def word? : List Char → Option (Json × List Char)
  | 'n' :: 'u' :: 'l' :: 'l' :: rest => some (.null, rest)
  | 't' :: 'r' :: 'u' :: 'e' :: rest => some (.bool true, rest)
  | 'f' :: 'a' :: 'l' :: 's' :: 'e' :: rest => some (.bool false, rest)
  | _ => none

def number? (s : List Char) : Option (Json × List Char) := do
  let (n, rest) ← numeral? s
  let n ← n.toNumber?
  some (.number n, rest)

def string? : List Char → Option (String × List Char)
  | '\x22' :: rest => (quotedRest? rest).map fun (cs, r) => (String.ofList cs, r)
  | _ => none

/-- A colon, with the blanks around it. -/
def colon? (s : List Char) : Option (List Char) :=
  match skipGaps s with
  | ':' :: rest => some rest
  | _ => none

mutual

/-- Reads a value and the blanks before it. `depth` is the number of levels that may still be
opened; `fuel` bounds the number of steps, of which no character takes more than two. -/
def readValue? (depth : Nat) : Nat → List Char → Option (Json × List Char)
  | 0, _ => none
  | fuel + 1, s =>
      match skipGaps s with
      | '\x22' :: rest => (quotedRest? rest).map fun (cs, r) => (.string (String.ofList cs), r)
      | '[' :: rest =>
          if depth = 0 then none
          else match skipGaps rest with
            | ']' :: rest => some (.array [], rest)
            | rest => (readElements? (depth - 1) fuel rest).map fun (xs, r) => (.array xs, r)
      | '\x7b' :: rest =>
          if depth = 0 then none
          else match skipGaps rest with
            | '\x7d' :: rest => some (.object [], rest)
            | rest => (readMembers? (depth - 1) fuel rest).map fun (ms, r) => (.object ms, r)
      | s => (word? s).orElse fun _ => number? s

/-- Reads one or more elements and the closing bracket. -/
def readElements? (depth : Nat) : Nat → List Char → Option (List Json × List Char)
  | 0, _ => none
  | fuel + 1, s => do
      let (x, rest) ← readValue? depth fuel s
      match skipGaps rest with
      | ',' :: rest => (readElements? depth fuel rest).map fun (xs, r) => (x :: xs, r)
      | ']' :: rest => some ([x], rest)
      | _ => none

def readMembers? (depth : Nat) : Nat → List Char → Option (List Member × List Char)
  | 0, _ => none
  | fuel + 1, s => do
      let (k, rest) ← string? (skipGaps s)
      let rest ← colon? rest
      let (v, rest) ← readValue? depth fuel rest
      match skipGaps rest with
      | ',' :: rest => (readMembers? depth fuel rest).map fun (ms, r) => ((k, v) :: ms, r)
      | '\x7d' :: rest => some ([(k, v)], rest)
      | _ => none

end

/-- Reads a text that is one JSON value with blanks around it. -/
def parse? (s : List Char) : Option Json :=
  match readValue? maxDepth (2 * s.length + 2) s with
  | some (v, rest) => if skipGaps rest = [] then some v else none
  | none => none

end RecordSearch.Json

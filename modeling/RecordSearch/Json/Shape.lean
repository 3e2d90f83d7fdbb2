import RecordSearch.Json.Parser

/-!
# Reading JSON of a given shape

A reader that knows what it expects and stops at the first fault. A fault of form (the text is no JSON up
to there) is told apart from a fault of content (a value of another type, an unknown word, a missing or
repeated field), and the one that comes first in the text counts. Members with other names are passed
over; numbers and escapes in them need only be well-formed. A structure may also be written as the array
of its fields in order. What follows the value is not looked at.
-/

namespace RecordSearch.Json

open RecordSearch.Text

/-- What a value is expected to be. -/
inductive Shape where
  | text
  | bool
  /-- A whole number of at most 64 bits. -/
  | natural
  | word (words : List String)
  | optional (shape : Shape)
  /-- Fields by name, each with a mark whether it must be there. -/
  | struct (fields : List (String × Bool × Shape))
  deriving Repr, Inhabited

inductive Fault where
  /-- The text is not well-formed. -/
  | form
  /-- The text has not the shape. -/
  | content
  deriving DecidableEq, Repr, Inhabited

/-! ## Passing over values -/

def skipString? : List Char → Option (List Char)
  | [] => none
  | '\x22' :: rest => some rest
  | '\x5c' :: 'u' :: a :: b :: c :: d :: rest =>
      if [a, b, c, d].all fun x => (hexValue? x).isSome then skipString? rest else none
  | '\x5c' :: c :: rest =>
      if "\x22\x5c/bfnrt".toList.contains c then skipString? rest else none
  | c :: rest => if c.toNat < 0x20 then none else skipString? rest

mutual

/-- Passes over a value and the blanks before it. -/
def skipValue? : Nat → List Char → Option (List Char)
  | 0, _ => none
  | fuel + 1, s =>
      match skipGaps s with
      | '\x22' :: rest => skipString? rest
      | '[' :: rest =>
          match skipGaps rest with
          | ']' :: rest => some rest
          | rest => skipElements? fuel rest
      | '\x7b' :: rest =>
          match skipGaps rest with
          | '\x7d' :: rest => some rest
          | rest => skipMembers? fuel rest
      | s => ((word? s).map (·.2)).orElse fun _ => (numeral? s).map (·.2)

def skipElements? : Nat → List Char → Option (List Char)
  | 0, _ => none
  | fuel + 1, s => do
      let rest ← skipValue? fuel s
      match skipGaps rest with
      | ',' :: rest => skipElements? fuel rest
      | ']' :: rest => some rest
      | _ => none

def skipMembers? : Nat → List Char → Option (List Char)
  | 0, _ => none
  | fuel + 1, s => do
      let '\x22' :: rest := skipGaps s | none
      let rest ← skipString? rest
      let rest ← colon? rest
      let rest ← skipValue? fuel rest
      match skipGaps rest with
      | ',' :: rest => skipMembers? fuel rest
      | '\x7d' :: rest => some rest
      | _ => none

end

/-! ## Reading -/

/-- The outcome of reading: a value and the rest of the text, or the first fault. -/
abbrev Reading := Except Fault (Json × List Char)

/-- The fault of a value that is not of the expected type: that of its form, if it has one. Arrays and
objects are not looked into. -/
def mismatch (s : List Char) : Fault :=
  match s with
  | '[' :: _ | '\x7b' :: _ => .content
  | '\x22' :: rest => if (quotedRest? rest).isSome then .content else .form
  | s => if ((word? s).orElse fun _ => number? s).isSome then .content else .form

def readText (s : List Char) : Reading :=
  match string? s with
  | some (t, rest) => .ok (.string t, rest)
  | none => .error (mismatch s)

def readBool (s : List Char) : Reading :=
  match word? s with
  | some (.bool b, rest) => .ok (.bool b, rest)
  | _ => .error (mismatch s)

def readNatural (s : List Char) : Reading :=
  match number? s with
  | some (.number n, rest) =>
      match n.toUInt64? with
      | some _ => .ok (.number n, rest)
      | none => .error .content
  | _ => .error (mismatch s)

/-- Reads a word of a list, alone or as the only member of an object that holds `null`. -/
def readWord (words : List String) (s : List Char) : Reading := do
  match s with
  | '\x22' :: _ => known (← readText s)
  | '\x7b' :: rest => do
      let (w, rest) ← known (← readText (skipGaps rest))
      let some rest := colon? rest | .error .form
      match word? (skipGaps rest) with
      | some (.null, rest) =>
          match skipGaps rest with
          | '\x7d' :: rest => .ok (w, rest)
          | _ => .error .form
      | _ => .error (mismatch (skipGaps rest))
  | _ => .error .form
where
  known : Json × List Char → Reading
    | (.string w, rest) => if w ∈ words then .ok (.string w, rest) else .error .content
    | _ => .error .content

def complete (fields : List (String × Bool × Shape)) (found : List Member) : Bool :=
  fields.all fun (name, needed, _) => !needed || (found.lookup name).isSome

def closeObject (fields : List (String × Bool × Shape)) (found : List Member) (rest : List Char) :
    Reading :=
  if complete fields found then .ok (.object found, rest) else .error .content

mutual

/-- Reads a value of the given shape and the blanks before it. -/
def readShape : Nat → Shape → List Char → Reading
  | 0, _, _ => .error .form
  | fuel + 1, shape, s =>
      let s := skipGaps s
      match shape with
      | .text => readText s
      | .bool => readBool s
      | .natural => readNatural s
      | .word words => readWord words s
      | .optional shape =>
          match s with
          | 'n' :: _ =>
              match word? s with
              | some (v, rest) => .ok (v, rest)
              | none => .error .form
          | _ => readShape fuel shape s
      | .struct fields =>
          match s with
          | '\x7b' :: rest =>
              match skipGaps rest with
              | '\x7d' :: rest => closeObject fields [] rest
              | rest => readFields fuel fields [] rest
          | '[' :: rest =>
              match skipGaps rest with
              | ']' :: rest => closeObject fields [] rest
              | rest => readElements fuel fields fields [] rest
          | _ => .error (mismatch s)

def readFields : Nat → List (String × Bool × Shape) → List Member → List Char → Reading
  | 0, _, _, _ => .error .form
  | fuel + 1, fields, found, s => do
      let some (name, rest) := string? (skipGaps s) | .error .form
      match fields.lookup name with
      | none => do
          let some rest := colon? rest | .error .form
          let some rest := skipValue? fuel rest | .error .form
          next fuel fields found rest
      | some (_, shape) => do
          if (found.lookup name).isSome then .error .content
          let some rest := colon? rest | .error .form
          let (v, rest) ← readShape fuel shape rest
          next fuel fields (found ++ [(name, v)]) rest

def next : Nat → List (String × Bool × Shape) → List Member → List Char → Reading
  | 0, _, _, _ => .error .form
  | fuel + 1, fields, found, s =>
      match skipGaps s with
      | '\x7d' :: rest => closeObject fields found rest
      | ',' :: rest => readFields fuel fields found rest
      | _ => .error .form

/-- Reads the elements of an array as the fields `left` in order, and its closing bracket. -/
def readElements : Nat → List (String × Bool × Shape) → List (String × Bool × Shape) → List Member →
    List Char → Reading
  | 0, _, _, _, _ => .error .form
  | _ + 1, _, [], _, _ => .error .form
  | fuel + 1, fields, (name, _, shape) :: left, found, s => do
      let (v, rest) ← readShape fuel shape s
      let found := found ++ [(name, v)]
      match skipGaps rest with
      | ']' :: rest => closeObject fields found rest
      | ',' :: rest =>
          match skipGaps rest with
          | ']' :: _ => .error .form
          | rest => readElements fuel fields left found rest
      | _ => .error .form

end

def Shape.read (shape : Shape) (s : List Char) : Reading := readShape (4 * s.length + 4) shape s

/-- Reads a text that is one value of the given shape. -/
def Shape.parse? (shape : Shape) (s : List Char) : Option Json :=
  match shape.read s with
  | .ok (v, rest) => if skipGaps rest = [] then some v else none
  | .error _ => none

end RecordSearch.Json

/-!
# Media types

The parts of a content type: `type/subtype+suffix`, then parameters, each `name=value` after a
semicolon. Letters are compared without regard to case.
-/

namespace RecordSearch.Service

/-- Content types without their parameters, in lower case. -/
structure MediaType where
  main : List Char
  subtype : List Char
  /-- What follows the last plus sign. -/
  suffix : Option (List Char)
  deriving DecidableEq, Repr

namespace MediaType

/-- The characters of names and unquoted values. -/
def isTokenChar (c : Char) : Bool :=
  c.isAlphanum || "!#$%&+-.^_|~".toList.contains c || c.toNat == 0x27 || c.toNat == 0x60

/-- The characters of quoted values. -/
def isQuotedChar (c : Char) : Bool := 31 < c.toNat && c.toNat ≠ 127

/-- Reads the rest of the parameters after a quoted value: nothing, or the text after the next
semicolon. -/
def afterQuoted? : List Char → Option (Option (List Char))
  | [] => some none
  | ';' :: rest => some (some rest)
  | ' ' :: rest => afterQuoted? rest
  | _ => none

/-- Reads the inside of a quoted value, which has at least one character, and its closing quote. -/
def quotedValue? (started : Bool) : List Char → Option (List Char)
  | [] => none
  | c :: rest =>
      if c = '\x22' ∧ started then some rest
      else if isQuotedChar c then quotedValue? true rest
      else none

/-- Whether a text is a list of parameters, the semicolon before the first left out. -/
def areParameters : Nat → List Char → Bool
  | 0, _ => false
  | _ + 1, [] => true
  | fuel + 1, ' ' :: rest => areParameters fuel rest
  | fuel + 1, s =>
      match s.takeWhile isTokenChar, s.dropWhile isTokenChar with
      | _ :: _, '=' :: '\x22' :: rest =>
          match (quotedValue? false rest).bind afterQuoted? with
          | some (some rest) => areParameters fuel rest
          | some none => true
          | none => false
      | _ :: _, '=' :: rest =>
          match rest.takeWhile isTokenChar, rest.dropWhile isTokenChar with
          | _, [] => true
          | _ :: _, ';' :: rest => areParameters fuel rest
          | _, _ => false
      | _, _ => false

/-- The subtype and the suffix of what follows the slash. A plus sign at the start belongs to the
subtype. -/
def splitSuffix (s : List Char) : List Char × Option (List Char) :=
  let suffix := (s.drop 1).reverse.takeWhile (· ≠ '+')
  if (s.drop 1).contains '+' then
    (s.take (s.length - suffix.length - 1), some suffix.reverse)
  else (s, none)

def parse? (s : List Char) : Option MediaType :=
  let lower (t : List Char) : List Char := t.map Char.toLower
  match s.takeWhile isTokenChar, s.dropWhile isTokenChar with
  | c :: main, '/' :: rest =>
      let name := rest.takeWhile isTokenChar
      let (subtype, suffix) := splitSuffix (lower name)
      let media : MediaType := ⟨lower (c :: main), subtype, suffix⟩
      match rest.dropWhile isTokenChar with
      | [] => some media
      | ';' :: rest => if name ≠ [] ∧ areParameters (rest.length + 1) rest then some media else none
      | _ => none
  | _, _ => none

/-- Whether the content type is JSON or built on JSON. -/
def isJson (m : MediaType) : Bool :=
  m.main == "application".toList &&
    (m.subtype == "json".toList || m.suffix == some "json".toList)

end MediaType

end RecordSearch.Service

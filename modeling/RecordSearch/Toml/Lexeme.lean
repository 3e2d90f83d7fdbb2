import RecordSearch.Json.Binary64
import RecordSearch.Text.Hexadecimal
import RecordSearch.Timestamp.Basic
import RecordSearch.Toml.Basic

/-!
# Lexemes of configuration documents

Readers for what a document is made of: gaps between the parts of a line, ends of lines, quoted texts,
keys, numbers, dates and times. A reader returns what it read and the rest of the document, or nothing if
the document does not go on with such a lexeme. Lines end with a line feed alone.
-/

namespace RecordSearch.Toml

open RecordSearch.Text

/-! ## Gaps -/

def isGap (c : Char) : Bool := c = ' ' || c = '\t'

def skipGaps (s : List Char) : List Char := s.dropWhile isGap

/-- The characters of comments and quoted texts: all but control characters, of which the tab is allowed. -/
def isPlain (c : Char) : Bool := c = '\t' || (0x20 ≤ c.toNat && c.toNat != 0x7F)

/-- The end of a line, before which a comment may stand, or the end of the document. -/
def lineEnd? (s : List Char) : Option (List Char) :=
  let s := match skipGaps s with
    | '#' :: rest => rest.dropWhile isPlain
    | rest => rest
  match s with
  | [] => some []
  | '\n' :: rest => some rest
  | _ => none

/-- Passes over gaps, line ends and comments; the mark says whether the text starts within a comment. -/
def skipLines : Bool → List Char → List Char
  | _, [] => []
  | _, '\n' :: s => skipLines false s
  | true, c :: s => if isPlain c then skipLines true s else c :: s
  | false, '#' :: s => skipLines true s
  | false, c :: s => if isGap c then skipLines false s else c :: s

/-- The document with line feeds in place of the pairs of carriage return and line feed. -/
def plainLines : List Char → List Char
  | '\r' :: '\n' :: s => '\n' :: plainLines s
  | c :: s => c :: plainLines s
  | [] => []

/-! ## Quoted texts -/

/-- The character of a hexadecimal number, unless it is half of a surrogate pair or out of range. -/
def scalar? (digits : List Char) : Option Char := do
  let values ← digits.mapM hexValue?
  let n := values.foldl (16 * · + ·) 0
  if n.isValidChar then some (Char.ofNat n) else none

def escape? : Char → Option Char
  | 'b' => some '\x08'
  | 't' => some '\t'
  | 'n' => some '\n'
  | 'f' => some '\x0c'
  | 'r' => some '\r'
  | '\x22' => some '\x22'
  | '\x5c' => some '\x5c'
  | _ => none

def prepend (c : Char) (r : Option (List Char × List Char)) : Option (List Char × List Char) :=
  r.map fun (cs, rest) => (c :: cs, rest)

def quotedRest? : List Char → Option (List Char × List Char)
  | [] => none
  | '\x22' :: s => some ([], s)
  | '\x5c' :: 'u' :: a :: b :: c :: d :: s => do
      prepend (← scalar? [a, b, c, d]) (quotedRest? s)
  | '\x5c' :: 'U' :: a :: b :: c :: d :: e :: f :: g :: h :: s => do
      prepend (← scalar? [a, b, c, d, e, f, g, h]) (quotedRest? s)
  | '\x5c' :: c :: s => do prepend (← escape? c) (quotedRest? s)
  | c :: s => if isPlain c then prepend c (quotedRest? s) else none

/-- The inside of a text of several lines in double quotes and the three closing quotes, before which
two more may stand. A backslash at the end of a line takes the gaps and line ends after it away; the mark
says whether the reader is within those. -/
def quotedLinesRest? : Bool → List Char → Option (List Char × List Char)
  | _, [] => none
  | true, '\n' :: s => quotedLinesRest? true s
  | true, ' ' :: s => quotedLinesRest? true s
  | true, '\t' :: s => quotedLinesRest? true s
  | _, '\x22' :: '\x22' :: '\x22' :: '\x22' :: '\x22' :: s => some (['\x22', '\x22'], s)
  | _, '\x22' :: '\x22' :: '\x22' :: '\x22' :: s => some (['\x22'], s)
  | _, '\x22' :: '\x22' :: '\x22' :: s => some ([], s)
  | _, '\x5c' :: 'u' :: a :: b :: c :: d :: s => do
      prepend (← scalar? [a, b, c, d]) (quotedLinesRest? false s)
  | _, '\x5c' :: 'U' :: a :: b :: c :: d :: e :: f :: g :: h :: s => do
      prepend (← scalar? [a, b, c, d, e, f, g, h]) (quotedLinesRest? false s)
  | _, '\x5c' :: c :: s =>
      match escape? c with
      | some x => prepend x (quotedLinesRest? false s)
      | none =>
          match skipGaps (c :: s) with
          | '\n' :: _ => quotedLinesRest? true s
          | _ => none
  | _, c :: s => if c = '\n' ∨ isPlain c then prepend c (quotedLinesRest? false s) else none

/-- The inside of a text in single quotes and the closing quote. Nothing in it is an escape. -/
def literalRest? (s : List Char) : Option (List Char × List Char) :=
  match s.dropWhile fun c => isPlain c && c != '\x27' with
  | '\x27' :: rest => some (s.takeWhile fun c => isPlain c && c != '\x27', rest)
  | _ => none

/-- The inside of a text of several lines in single quotes and the three closing quotes, before which
two more may stand. -/
def literalLinesRest? : List Char → Option (List Char × List Char)
  | [] => none
  | '\x27' :: '\x27' :: '\x27' :: '\x27' :: '\x27' :: s => some (['\x27', '\x27'], s)
  | '\x27' :: '\x27' :: '\x27' :: '\x27' :: s => some (['\x27'], s)
  | '\x27' :: '\x27' :: '\x27' :: s => some ([], s)
  | c :: s => if c = '\n' ∨ isPlain c then prepend c (literalLinesRest? s) else none

def dropLineEnd : List Char → List Char
  | '\n' :: s => s
  | s => s

def asString (r : Option (List Char × List Char)) : Option (String × List Char) :=
  r.map fun (cs, rest) => (String.ofList cs, rest)

/-- A text in one of the four kinds of quotes. -/
def readString? : List Char → Option (String × List Char)
  | '\x22' :: '\x22' :: '\x22' :: s => asString (quotedLinesRest? false (dropLineEnd s))
  | '\x22' :: s => asString (quotedRest? s)
  | '\x27' :: '\x27' :: '\x27' :: s => asString (literalLinesRest? (dropLineEnd s))
  | '\x27' :: s => asString (literalRest? s)
  | _ => none

/-! ## Keys -/

def isKeyChar (c : Char) : Bool := c.isAlphanum || c = '_' || c = '-'

/-- One part of a key: bare, or in quotes on one line. -/
def keyPart? : List Char → Option (String × List Char)
  | '\x22' :: s => asString (quotedRest? s)
  | '\x27' :: s => asString (literalRest? s)
  | s =>
      match s.takeWhile isKeyChar with
      | [] => none
      | name => some (String.ofList name, s.dropWhile isKeyChar)

def keyParts? : Nat → List Char → Option (List String × List Char)
  | 0, _ => none
  | fuel + 1, s => do
      let (part, rest) ← keyPart? (skipGaps s)
      match skipGaps rest with
      | '.' :: rest => (keyParts? fuel rest).map fun (parts, rest) => (part :: parts, rest)
      | rest => some ([part], rest)

/-- How many parts a key may have, and how deep arrays and tables may be nested in a value. -/
def maxDepth : Nat := 79

/-- A key of one or more parts: those before the last, and the last. -/
def key? (s : List Char) : Option (List String × String × List Char) := do
  let (parts, rest) ← keyParts? (s.length + 1) s
  if maxDepth < parts.length then none
  else some (parts.dropLast, ← parts.getLast?, rest)

/-! ## Numbers -/

/-- The digits after a digit. An underscore may stand between two digits. -/
def moreDigits (isDigit : Char → Bool) : List Char → List Char × List Char
  | '_' :: c :: s =>
      if isDigit c then let (ds, rest) := moreDigits isDigit s; (c :: ds, rest) else ([], '_' :: c :: s)
  | c :: s => if isDigit c then let (ds, rest) := moreDigits isDigit s; (c :: ds, rest) else ([], c :: s)
  | [] => ([], [])

def digits? (isDigit : Char → Bool) : List Char → Option (List Char × List Char)
  | c :: s =>
      if isDigit c then let (ds, rest) := moreDigits isDigit s; some (c :: ds, rest) else none
  | [] => none

/-- Whether a minus sign stands at the start of a text, and the text after its sign. -/
def sign : List Char → Bool × List Char
  | '-' :: s => (true, s)
  | '+' :: s => (false, s)
  | s => (false, s)

/-- A single zero, or digits of which the first is not zero. -/
def wholeDigits? : List Char → Option (List Char × List Char)
  | '0' :: s => some (['0'], s)
  | s => digits? Decimal.isDigit s

/-- An integer of 64 bits: decimal with an optional sign, or in one of three other bases without. -/
def integer? : List Char → Option (Int × List Char)
  | '0' :: 'x' :: s => inBase 16 s
  | '0' :: 'o' :: s => inBase 8 s
  | '0' :: 'b' :: s => inBase 2 s
  | s => do
      let (negative, s) := sign s
      let (ds, rest) ← wholeDigits? s
      let n : Int := if negative then -Decimal.ofDigits ds else Decimal.ofDigits ds
      if -0x8000000000000000 ≤ n ∧ n < 0x8000000000000000 then some (n, rest) else none
where
  inBase (base : Nat) (s : List Char) : Option (Int × List Char) := do
    let (ds, rest) ← digits? (fun c => ((hexValue? c).map (decide <| · < base)).getD false) s
    let n := ds.foldl (fun n c => base * n + (hexValue? c).getD 0) 0
    if n < 0x8000000000000000 then some (n, rest) else none

def exponent? : List Char → Option (Int × List Char)
  | c :: s =>
      if c = 'e' ∨ c = 'E' then do
        let (negative, s) := sign s
        let (ds, rest) ← digits? Decimal.isDigit s
        some (if negative then -Decimal.ofDigits ds else Decimal.ofDigits ds, rest)
      else none
  | [] => none

/-- Whether the number `digits · 10 ^ exponent` is within the range of doubles. -/
def isFinite (digits : List Char) (exponent : Int) : Bool :=
  let digits := digits.dropWhile (· = '0')
  let size : Int := digits.length + exponent
  if digits = [] ∨ size < 300 then true
  else if 400 < size then false
  else
    (Json.Binary64.ofRatio false (Decimal.ofDigits digits * Nat.pow 10 exponent.toNat)
      (Nat.pow 10 (-exponent).toNat)).isSome

/-- The rest of a text after a floating-point number: an integer with a fraction, an exponent or both,
or one of the words `inf` and `nan`. Only a negative number may be out of range. -/
def floatRest? (s : List Char) : Option (List Char) := do
  let (negative, s) := sign s
  match s with
  | 'i' :: 'n' :: 'f' :: rest | 'n' :: 'a' :: 'n' :: rest => some rest
  | s => do
      let (whole, s) ← wholeDigits? s
      let (fraction, exponent, rest) ← match s with
        | '.' :: s => do
            let (fraction, s) ← digits? Decimal.isDigit s
            match exponent? s with
            | some (e, rest) => some (fraction, e, rest)
            | none => some (fraction, 0, s)
        | s => (exponent? s).map fun (e, rest) => ([], e, rest)
      if negative ∨ isFinite (whole ++ fraction) (exponent - fraction.length) then some rest else none

/-! ## Dates and times -/

/-- A number of exactly so many digits within bounds. -/
def field? (width low high : Nat) (s : List Char) : Option (Nat × List Char) :=
  let ds := s.take width
  let n := Decimal.ofDigits ds
  if ds.length = width ∧ ds.all Decimal.isDigit ∧ low ≤ n ∧ n ≤ high then some (n, s.drop width)
  else none

def after? (c : Char) : List Char → Option (List Char)
  | d :: s => if c = d then some s else none
  | [] => none

def dateRest? (s : List Char) : Option (List Char) := do
  let (year, s) ← field? 4 0 9999 s
  let s ← after? '-' s
  let (month, s) ← field? 2 1 12 s
  let s ← after? '-' s
  let (_, s) ← field? 2 1 (daysInMonth year month) s
  some s

def timeRest? (s : List Char) : Option (List Char) := do
  let (_, s) ← field? 2 0 23 s
  let s ← after? ':' s
  let (_, s) ← field? 2 0 59 s
  let s ← after? ':' s
  let (_, s) ← field? 2 0 60 s
  match s with
  | '.' :: t =>
      match t.takeWhile Decimal.isDigit with
      | [] => some s
      | _ => some (t.dropWhile Decimal.isDigit)
  | s => some s

def offsetRest? : List Char → Option (List Char)
  | c :: s =>
      if c = 'Z' ∨ c = 'z' then some s
      else if c = '+' ∨ c = '-' then do
        let (_, s) ← field? 2 0 23 s
        let s ← after? ':' s
        let (_, s) ← field? 2 0 59 s
        some s
      else none
  | [] => none

/-- The rest of a text after a date, a time, or a date with a time and perhaps an offset. -/
def dateTimeRest? (s : List Char) : Option (List Char) :=
  match dateRest? s with
  | none => timeRest? s
  | some rest =>
      match rest with
      | c :: t =>
          if c = 'T' ∨ c = 't' ∨ c = ' ' then
            match timeRest? t with
            | some t => some ((offsetRest? t).getD t)
            | none => some rest
          else some rest
      | [] => some []

end RecordSearch.Toml

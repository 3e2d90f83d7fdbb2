/-!
# Configuration documents

The values of configuration documents. Tables remember how they came about, because a document may add
to some tables later on and not to others.
-/

namespace RecordSearch

inductive TableOrigin where
  /-- Written in braces. -/
  | braces
  /-- Opened by a header of its own. -/
  | header
  /-- Passed through by the header of another table. -/
  | implied
  /-- Passed through by a key with dots. -/
  | dotted
  deriving DecidableEq, Repr, Inhabited

inductive Toml where
  | string (s : String)
  | integer (n : Int)
  /-- A floating-point number, as written. -/
  | float (numeral : List Char)
  | boolean (b : Bool)
  /-- A date, a time or both, as written. -/
  | dateTime (text : List Char)
  | array (elements : List Toml)
  | table (origin : TableOrigin) (members : List (String × Toml))
  /-- Tables of one name, each opened by a header. -/
  | tables (elements : List (List (String × Toml)))
  deriving Repr, Inhabited

namespace Toml

abbrev Members := List (String × Toml)

def string? : Toml → Option String
  | .string s => some s
  | _ => none

def boolean? : Toml → Option Bool
  | .boolean b => some b
  | _ => none

def isHollow : Toml → Bool
  | .array [] | .table _ [] => true
  | _ => false

/-- A word: a text, or the name of the only member of a table, which must hold nothing. -/
def word? : Toml → Option String
  | .string s => some s
  | .table _ [(name, v)] => if v.isHollow then some name else none
  | _ => none

/-- The fields of a structure by their names. They are written as a table, or as an array of the first
of them in order. -/
def fields? (names : List String) : Toml → Option Members
  | .table _ ms => some ms
  | .array xs => some (names.zip xs)
  | .tables ts => some (names.zip (ts.map (.table .header)))
  | _ => none

end Toml

end RecordSearch

import RecordSearch.Text.Segments

/-!
# Paths

Paths as texts, as users write and read them, and the locations that they denote: the names of the
directories from the root downwards. A path that does not begin with a slash starts from the working
directory.
-/

namespace RecordSearch

open Text

/-- The names that lead from the root to a file or directory. -/
abbrev Location := List String

namespace Location

def enter (at' : Location) (name : String) : Location :=
  if name = "" ∨ name = "." then at'
  else if name = ".." then at'.dropLast
  else at' ++ [name]

def names (path : String) : List String := (segments '/' path.toList).map String.ofList

/-- Where a path starts, seen from a working directory. -/
def start (workingDirectory : Location) (path : String) : Location :=
  if path.toList.head? = some '/' then [] else workingDirectory

/-- The location that a path denotes, seen from a working directory. -/
def ofPath (workingDirectory : Location) (path : String) : Location :=
  (names path).foldl enter (start workingDirectory path)

/-- The locations to which names lead one after another. -/
def steps (l : Location) : List String → List Location
  | [] => []
  | name :: rest => l.enter name :: steps (l.enter name) rest

def path (l : Location) : String :=
  if l = [] then "/" else String.join (l.map fun name => "/" ++ name)

end Location

/-- A path together with the location it denotes. -/
structure Place where
  path : String
  location : Location
  /-- The locations that the path passes through on its way. -/
  way : List Location
  deriving DecidableEq, Repr, Inhabited

namespace Place

def ofPath (workingDirectory : Location) (path : String) : Place :=
  let start := Location.start workingDirectory path
  let names := (Location.names path).filter fun name => name ≠ "" ∧ name ≠ "."
  ⟨path, Location.ofPath workingDirectory path, (start :: start.steps names).dropLast⟩

def child (place : Place) (name : String) : Place :=
  let path :=
    if place.path = "" then name
    else if place.path.toList.getLast? = some '/' then place.path ++ name
    else place.path ++ "/" ++ name
  ⟨path, place.location ++ [name], place.way ++ [place.location]⟩

end Place

/-- The last name of a path, without slashes and single points after it. -/
def fileName? (path : String) : Option String :=
  match ((segments '/' path.toList).filter fun s => s ≠ [] ∧ s ≠ ['.']).getLast? with
  | some name => if name = ['.', '.'] then none else some (String.ofList name)
  | none => none

/-- The part of a file name after its last point, if the point does not come first. -/
def extension? (path : String) : Option String := do
  let name ← fileName? path
  let parts := segments '.' name.toList
  let last ← parts.getLast?
  if parts.length ≤ 1 ∨ parts.dropLast = [[]] then none else some (String.ofList last)

end RecordSearch

import RecordSearch.Dictionary
import RecordSearch.Store.Database.Basic
import RecordSearch.Store.Location

/-!
# Files

A disk as the contents of its files and directories, and the operations that stores need. Operations
that the file system refuses leave the disk as it was; writes that are broken off leave a beginning of what
was to be written.
-/

namespace RecordSearch

inductive Entry where
  | directory
  | text (content : List Char)
  /-- A file whose bytes are not those of a text, such as one that is broken off inside a character. -/
  | illegible
  /-- A file that holds a database. A table that it lacks counts as one without rows; how changes of it are
  logged, and the files beside it that this takes, are left out. -/
  | database (content : Database)
  deriving DecidableEq, Repr, Inhabited

abbrev Disk := Dictionary Location Entry

namespace Disk

/-- What stands at a location; the root is always a directory. -/
def content? (disk : Disk) (l : Location) : Option Entry :=
  if l = [] then some .directory else disk.get? l

def exists? (disk : Disk) (l : Location) : Bool := (disk.content? l).isSome

def isDirectory (disk : Disk) (l : Location) : Bool :=
  match disk.content? l with
  | some .directory => true
  | _ => false

def isFile (disk : Disk) (l : Location) : Bool :=
  match disk.content? l with
  | some .directory | none => false
  | some _ => true

def enter? (disk : Disk) (l : Location) (name : String) : Option Location :=
  if disk.isDirectory l then some (l.enter name) else none

/-- Where a path leads, seen from a working directory, if something stands there. All that the path passes
through must be directories, also before a slash at its end. -/
def follow? (disk : Disk) (workingDirectory : Location) (path : String) : Option Location :=
  if path = "" then none
  else do
    let l ← (Location.names path).foldlM disk.enter? (Location.start workingDirectory path)
    if disk.exists? l then some l else none

/-- Makes each of the locations a directory, in order. Nothing if a file is in the way. -/
def makeDirectories (disk : Disk) : List Location → Option Disk
  | [] => some disk
  | l :: rest =>
      match disk.content? l with
      | some .directory => makeDirectories disk rest
      | none => makeDirectories (disk.insert l .directory) rest
      | some _ => none

/-- The location and all that lead to it, from the top. -/
def path (l : Location) : List Location := (List.range (l.length + 1)).map l.take

def createDirectory? (disk : Disk) (l : Location) : Option Disk := disk.makeDirectories (path l)

/-- Writes a text, in place of the file that was there. Nothing if a directory is there or the directory
around it is missing. -/
def writeText? (disk : Disk) (l : Location) (content : List Char) : Option Disk :=
  if disk.isDirectory l ∨ ¬ disk.isDirectory l.dropLast then none
  else some (disk.insert l (.text content))

/-- Appends to a text, or begins one. What is appended to an illegible file does not make it legible. -/
def appendText? (disk : Disk) (l : Location) (content : List Char) : Option Disk :=
  match disk.content? l with
  | some (.text before) => some (disk.insert l (.text (before ++ content)))
  | some .illegible => some disk
  | none => disk.writeText? l content
  | some _ => none

/-- The characters in the first bytes of a text, unless these end inside a character. -/
def firstBytes? : Nat → List Char → Option (List Char)
  | _, [] => some []
  | n, c :: rest =>
      if n = 0 then some []
      else if c.utf8Size ≤ n then (firstBytes? (n - c.utf8Size) rest).map (c :: ·)
      else none

/-- Leaves the first bytes of a text where `write` would put all of it. -/
def writeBytes? (write : List Char → Option Disk) (l : Location) (n : Nat) (content : List Char) :
    Option Disk :=
  match firstBytes? n content with
  | some kept => write kept
  | none => (write []).map (·.insert l .illegible)

/-- Moves a file onto another location, in place of the file that was there. -/
def rename? (disk : Disk) (source target : Location) : Option Disk :=
  match disk.content? source with
  | some e => if disk.isDirectory target then none else some ((disk.erase source).insert target e)
  | none => none

/-- What one disk has that another has not, and the locations where it has nothing any more. -/
def changes (before after : Disk) : List (Location × Entry) × List Location :=
  (after.entries.filter fun (l, e) => before.get? l ≠ some e,
    before.keys.filter fun l => (after.get? l).isNone)

end Disk

end RecordSearch

import RecordSearch.CommandLine.Run
import RecordSearch.Store.Database.Snapshot
import Std.Time.DateTime.Timestamp

/-!
# The program

Reads the files that a command line is about, runs it, prints what it prints and writes the files that it
changes. No service is reached over the network.
-/

namespace RecordSearch.Main

def entryAt (l : Location) : IO (Option Entry) := do
  try
    let file ← IO.FS.realPath l.path
    if ← file.isDir then return some .directory
    match ← (IO.FS.readFile file).toBaseIO with
    | .ok content => return some (.ofText content.toList)
    | .error _ => return some .illegible
  catch _ => return none

/-- Takes what stands at a location, and the directories that lead to it, onto a disk. -/
def take (disk : Disk) (l : Location) : IO Disk := do
  let mut disk := disk
  for step in Disk.path l do
    if let some entry ← entryAt step then
      if step ≠ [] then disk := disk.insert step entry
  return disk

/-- The locations of a path, which may be that of a directory with the files of a store. -/
def locations (env : Surroundings) (path : String) : List Location :=
  let place := Place.ofPath env.workingDirectory path
  place.way ++ [place.location, (DirectoryStore.metadataPlace place).location,
    (DirectoryStore.recordsPlace place).location, (DirectoryStore.draftPlace place).location]

/-- Writes what has changed from one disk to another. -/
def save (before after : Disk) : IO Unit := do
  let (present, absent) := Disk.changes before after
  for (l, entry) in present do
    match entry.text? with
    | some content => IO.FS.writeFile l.path (String.ofList content)
    | none => if entry = .directory then IO.FS.createDirAll l.path
  for l in absent do IO.FS.removeFile l.path

/-- Prints how a command ends and gives its exit code. -/
def finish (ending : CommandLine.Ending) : IO UInt32 := do
  match ending with
  | .failed e => IO.eprintln ("Error: " ++ e.message?.getD "the operation failed")
  | .misused => IO.eprintln "error: invalid arguments; try --help"
  | .serving _ _ => IO.eprintln "Error: cannot listen"
  | .done | .helped => pure ()
  return match ending with
    | .serving _ _ => 1
    | ending => ending.code.toUInt32

def run (arguments : List String) : IO UInt32 := do
  let directory := Location.ofPath [] (toString (← IO.currentDir))
  let now := (← Std.Time.Timestamp.now).toSecondsSinceUnixEpoch.val
  let env : Surroundings := ⟨directory, UInt64.ofNat now.toNat⟩
  let server ← IO.getEnv "APPSEARCH_SERVER_URL"
  let settings ← (CommandLine.Settings.candidates directory).foldlM take (← take {} directory)
  let disk ← match CommandLine.prepare env server arguments settings with
    | .error _ => pure settings
    | .ok command => (command.paths.flatMap (locations env)).foldlM take settings
  let (outcome, after) :=
    CommandLine.run env Service.Network.unreachable server arguments disk
  IO.print outcome.output
  if outcome.ending = .helped then IO.println ""
  save disk after
  finish outcome.ending

end RecordSearch.Main

def main (arguments : List String) : IO UInt32 := RecordSearch.Main.run arguments

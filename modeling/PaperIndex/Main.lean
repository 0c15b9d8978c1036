import PaperIndex.Cli.Run
import PaperIndex.Database.Format
import PaperIndex.Json.Print
import Std.Time.DateTime.Timestamp

/-! # The program

The program puts together the machine that a command runs on, runs the command on it and leaves the
database behind. A database is a file with its stored form; no server is within reach. -/

namespace PaperIndex.Cli

/-- The number of an error, which may be told as its negative in 32 bits. -/
def errorNumber (code : UInt32) : Nat :=
  if code.toNat < Word.count 31 then code.toNat else Word.count 32 - code.toNat

/-- The wording of an error of the file system. -/
def wordingOf : IO.Error → String
  | .noFileOrDirectory _ code details =>
    details.capitalize ++ " (os error " ++ toString (errorNumber code) ++ ")"
  | e => toString e

/-- The path from the root to a place. -/
def pathOf (p : Files.Place) : String := "/" ++ "/".intercalate p.reverse

/-- What a text in a file is: the stored form of a database, or a text. -/
def contentOf (text : String) : Database.Content :=
  match (Json.ofText? text).toOption.bind Format.stored.read? with
  | some db => .database db
  | none => .text text

/-- Notes what is at a place. -/
def look (disk : Files.Disk Database.Content) (p : Files.Place) :
    IO (Files.Disk Database.Content) := do
  let file := (← IO.currentDir) / pathOf p
  if ← file.isDir then return disk.put p .directory
  else if ← file.pathExists then
    let content ← try pure (contentOf (← IO.FS.readFile file)) catch _ => pure .binary
    return disk.put p (.file content)
  else return disk

/-- Notes what is on the way of a path. -/
def lookAlong (disk : Files.Disk Database.Content) (text : String) :
    IO (Files.Disk Database.Content) := do
  let path := Files.Path.ofText text
  let mut place := disk.origin path
  let mut disk := disk
  for step in path.steps do
    place := if step = Files.Path.outward then place.tail else step :: place
    disk ← look disk place
  return disk

/-- The paths of the files that a command reads. -/
def filesOf : Command → List String
  | .recordFile path => [path]
  | .submitFile path => [path]
  | _ => []

/-- The paths at which the database of a configuration is looked for. -/
def databasePaths (c : Config) : List String :=
  let target := (Database.Address.ofPath c.databasePath).toOption.bind fun a => a.target.toOption
  c.databasePath :: match target with
    | some (.file path) => [path]
    | _ => []

/-- The working directory. -/
def workingPlace : IO Files.Place := do
  let path := Files.Path.ofText (← IO.currentDir).toString
  return path.steps.reverse

/-- The machine for a command. -/
def machineFor (i : Invocation) : IO (Machine Unit) := do
  let now ← Std.Time.Timestamp.now
  let seed ← IO.rand 0 (Word.greatest 62)
  let start := Files.Disk.around (← workingPlace)
  let disk ← (i.configPath :: filesOf i.command).foldlM lookAlong start
  let m : Machine Unit := ⟨disk, 0, (), now.toMillisecondsSinceUnixEpoch.val, seed⟩
  match Config.load i.configPath (m.fileText i.configPath).toOption with
  | .error _ => return m
  | .ok c =>
    let disk ← (databasePaths c).foldlM lookAlong disk
    let size ← try
      pure (← ((← IO.currentDir) / c.databasePath).metadata).byteSize.toNat
      catch _ => pure 0
    return { m with disk, databaseSize := size }

/-- Leaves the directories and databases of a disk behind. -/
def keep (disk : Files.Disk Database.Content) : IO Unit := do
  for (place, entry) in disk.entries.rows.reverse do
    let file := (← IO.currentDir) / pathOf place
    match entry with
    | .directory => IO.FS.createDirAll file
    | .file (.database db) => IO.FS.writeFile file (Format.stored.write db).compact
    | .file (.text s) => unless ← file.pathExists do IO.FS.writeFile file s
    | .file .binary => pure ()

/-- Prints a complaint with its cause. -/
def printFailure (complaint : String) (cause : Option String) : IO Unit := do
  IO.eprintln ("Error: " ++ complaint)
  if let some cause := cause then
    IO.eprintln ("\nCaused by:\n    " ++ cause)

/-- Runs what is asked for. -/
def runInvocation (i : Invocation) : IO UInt32 := do
  let (outcome, m) := (← machineFor i).run Http.unreachable i
  keep m.disk
  IO.print outcome.out
  if let .failed complaint cause := outcome.ending then printFailure complaint cause
  return outcome.ending.exitCode

end PaperIndex.Cli

open PaperIndex.Cli in
/-- Runs the program on its arguments. -/
def main (args : List String) : IO UInt32 := do
  match readArguments args with
  | .ok i =>
    try
      runInvocation i
    catch e =>
      printFailure (wordingOf e) none
      return 1
  | .error .help =>
    IO.print (linesText helpLines)
    return 0
  | .error .version =>
    IO.println versionLine
    return 0
  | .error .usage =>
    IO.eprint (linesText helpLines)
    return 2

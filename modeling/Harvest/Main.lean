import Harvest.Command.Run
import Harvest.TypeScript.Grammar

/-!
# The program

Takes a picture of the part of the disk that a command looks at, runs the command on the picture, and
writes back the files that the command has changed.
-/

namespace Harvest.Program

/-- Colours are shown on a terminal, unless the environment decides otherwise. A variable that is `0`
says no. -/
def wantsColor (forced refused chosen : Option String) (isTerminal : Bool) : Bool :=
  if forced.any (· != "0") then true
  else if refused.isSome then false
  else chosen.all (· != "0") && isTerminal

/-- The location of a path that starts from the working directory. -/
def locationOf (cwd path : Path) : Location := (cwd.join path).parts.foldl FileSystem.step []

/-- The path of a location. -/
def pathOf (location : Location) : Path := ⟨"/" ++ "/".intercalate location⟩

/-- Adds an entry to a picture, with the directories around it. -/
def addEntry (picture : FileSystem) (location : Location) (entry : Entry) : FileSystem :=
  let around := (picture.makeDirectories (pathOf location.dropLast)).getD picture
  (around.insert? location entry).getD around

/-- The same refusals, and one more: the file at a location can be neither read nor written. -/
def refusing (refusals : Refusals) (location : Location) (cause : AccessError) : Refusals where
  reading other := if other = location then some cause else refusals.reading other
  writing other := if other = location then some cause else refusals.writing other
  closed other allowed := by
    split at allowed
    · cases allowed
    · rename_i elsewhere
      rw [if_neg elsewhere]
      exact refusals.closed other allowed

/-- Adds a file that the system refuses to read. -/
def addRefused (picture : FileSystem) (location : Location) (cause : AccessError) : FileSystem :=
  let grown := addEntry picture location (.file .empty)
  { grown with refusals := refusing grown.refusals location cause }

/-- Adds what stands at a location of the disk, if anything does. -/
def addFromDisk (picture : FileSystem) (location : Location) : IO FileSystem := do
  let place := (← IO.currentDir) / (pathOf location).text
  if ← place.isDir then
    return (picture.makeDirectories (pathOf location)).getD picture
  else if ← place.pathExists then
    match ← (IO.FS.readBinFile place).toBaseIO with
    | .ok content => return addEntry picture location (.file content)
    | .error error => return addRefused picture location (.other (toString error))
  else return picture

/-- Adds the directories and source files at a location of the disk and below it. -/
partial def addSources (picture : FileSystem) (location : Location) : IO FileSystem := do
  let place := (← IO.currentDir) / (pathOf location).text
  if ← place.isDir then
    let mut grown := (picture.makeDirectories (pathOf location)).getD picture
    for entry in ← place.readDir do
      grown ← addSources grown (location ++ [entry.fileName])
    return grown
  else if Source.isSource (pathOf location) then addFromDisk picture location
  else return picture

/-- Adds all that decides on the configuration of a directory. -/
def addConfigs (picture : FileSystem) (cwd : Path) : IO FileSystem := do
  let mut grown ← addFromDisk picture (locationOf cwd ⟨""⟩)
  for directory in cwd.ancestors do
    grown ← addFromDisk grown (locationOf cwd (directory.join Config.fileName))
    let mark := directory.join Config.repositoryMark
    if ← ((← IO.currentDir) / mark.text).pathExists then
      grown := addEntry grown (locationOf cwd mark) .directory
  return grown

/-- The picture that a command needs. -/
def takePicture (cwd : Path) : Command.Invocation → IO FileSystem
  | .nothing => return .empty
  | .init => addConfigs .empty cwd
  | .extract flags => do
    let picture ← addConfigs .empty cwd
    match Config.load picture cwd with
    | .error _ => return picture
    | .ok loaded =>
      let options := (Command.extractOptions loaded flags cwd false).1
      let sources ← addSources picture (locationOf cwd options.projectDir)
      let output ← addFromDisk sources (locationOf cwd options.outputDir)
      addFromDisk output (locationOf cwd (options.outputDir.join Catalog.fileName))

/-- Writes the files that differ from those of the picture. -/
def writeBack (picture changed : FileSystem) : IO Unit := do
  for (location, entry) in changed.entries do
    if picture.entry? location != some entry then
      match entry with
      | .file content => IO.FS.writeBinFile (pathOf location).text content
      | .directory => pure ()

/-- Says what a report has to say. -/
def say (report : Command.Report) : IO UInt32 := do
  IO.eprint report.stderr
  IO.print report.stdout
  return report.exitCode.toUInt32

/-- Runs a command line on the disk. One that asks for no command does not look at it. -/
def execute (words : List String) (colored : Bool) : IO UInt32 := do
  match Command.readArguments words with
  | .error _ => say (Command.perform TypeScript.parser .empty words ⟨""⟩ colored)
  | .ok invocation =>
    let cwd : Path := ⟨(← IO.currentDir).toString⟩
    let picture ← takePicture cwd invocation
    let report := Command.perform TypeScript.parser picture words cwd colored
    writeBack picture report.files
    say report

end Harvest.Program

open Harvest in
/-- Runs a command line. -/
def main (args : List String) : IO UInt32 := do
  let colored := Program.wantsColor (← IO.getEnv "CLICOLOR_FORCE") (← IO.getEnv "NO_COLOR")
    (← IO.getEnv "CLICOLOR") (← (← IO.getStdout).isTty)
  try Program.execute args colored
  catch error =>
    IO.eprintln (Command.failureLine (toString error))
    return 2

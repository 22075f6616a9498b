import Harvest.FileSystem.Basic
import Harvest.Path

/-!
# Access by paths

A path is followed part by part. Every part but the last has to lead to a directory; behind a final
slash or dot the last one does too.
-/

namespace Harvest

namespace FileSystem

/-- Where a part of a path leads from a location. -/
def step (location : Location) (part : String) : Location :=
  if part == "" || part == "." then location
  else if part == ".." then location.dropLast
  else location ++ [part]

/-- Follows the parts of a path from a location. -/
def follow (fs : FileSystem) : Location → List String → Except AccessError Location
  | location, [] => .ok location
  | location, part :: parts =>
    match fs.entry? location with
    | some .directory => follow fs (step location part) parts
    | some (.file _) => .error .notADirectory
    | none => .error .notFound

/-- The location that a path leads to. The empty path leads nowhere. -/
def locate (fs : FileSystem) (path : Path) : Except AccessError Location :=
  if path.text.isEmpty then .error .notFound
  else follow fs (if path.isAbsolute then [] else fs.current) path.parts

/-- What stands where a path leads. -/
def entryAt (fs : FileSystem) (path : Path) : Except AccessError Entry := do
  match fs.entry? (← fs.locate path) with
  | some entry => return entry
  | none => throw .notFound

def isDirectory (fs : FileSystem) (path : Path) : Bool :=
  match fs.entryAt path with
  | .ok .directory => true
  | _ => false

def pathExists (fs : FileSystem) (path : Path) : Bool :=
  match fs.entryAt path with
  | .ok _ => true
  | .error _ => false

/-- The bytes of the file at a location. -/
def contentAt (fs : FileSystem) (location : Location) : Except AccessError ByteArray :=
  match fs.entry? location with
  | some (.file content) =>
    match fs.refusals.reading location with
    | some cause => .error cause
    | none => .ok content
  | some .directory => .error .isADirectory
  | none => .error .notFound

/-- The bytes of a file. -/
def readBytes (fs : FileSystem) (path : Path) : Except AccessError ByteArray := do
  fs.contentAt (← fs.locate path)

/-- The text that bytes are. -/
def decode (content : ByteArray) : Except AccessError String :=
  match String.fromUTF8? content with
  | some text => .ok text
  | none => .error .notText

/-- The text of a file. -/
def readText (fs : FileSystem) (path : Path) : Except AccessError String := do
  decode (← fs.readBytes path)

/-- Writes a file, whether there was one or not. The directory it lies in must be there. -/
def writeBytes (fs : FileSystem) (path : Path) (content : ByteArray) :
    Except AccessError FileSystem := do
  let location ← fs.locate path
  match fs.entry? location, fs.entry? location.dropLast with
  | some .directory, _ => throw .isADirectory
  | _, some (.file _) => throw .notADirectory
  | _, _ =>
    match fs.refusals.writing location, fs.insert? location (.file content) with
    | some cause, _ => throw cause
    | none, some changed => return changed
    | none, none => throw .notFound

/-- Writes a text file. -/
def writeText (fs : FileSystem) (path : Path) (text : String) : Except AccessError FileSystem :=
  fs.writeBytes path text.toUTF8

/-- Makes the directories of a list of names below a location, as far as they are missing. -/
def makeDirectoriesBelow (fs : FileSystem) : Location → List String → Option FileSystem
  | _, [] => some fs
  | location, name :: names =>
    let next := step location name
    match fs.entry? next with
    | some .directory => makeDirectoriesBelow fs next names
    | some (.file _) => none
    | none =>
      match fs.insert? next .directory with
      | some changed => makeDirectoriesBelow changed next names
      | none => none

/-- Makes a directory and those it lies in, as far as they are missing. -/
def makeDirectories (fs : FileSystem) (path : Path) : Option FileSystem :=
  makeDirectoriesBelow fs (if path.isAbsolute then [] else fs.current) path.parts

end FileSystem

end Harvest

import Harvest.Catalog
import Harvest.Source.Load
import Harvest.Text.Style

/-!
# An extraction

Loads a project, extracts the messages of its files and writes their catalog. The catalog is written
only when everything before it has succeeded.
-/

namespace Harvest

/-- What an extraction is to do. -/
structure Options where
  projectDir : Path
  outputDir : Path
  sourceLang : String
  ignore : List String
  verbose : Bool := false
  /-- Colours are shown. -/
  colored : Bool := false

/-- What an extraction has done. -/
structure Summary where
  messages : List Message
  /-- The number of files that were searched; declaration files are not. -/
  fileCount : Nat
  catalogPath : Path

/-- The number of messages that were found. -/
def Summary.messageCount (summary : Summary) : Nat := summary.messages.length

/-- How an extraction ends: what it has said on the way, its result, and the file system. -/
structure Outcome where
  log : List String
  result : Except Halt Summary
  files : FileSystem

namespace SourceSet

/-- The files that are searched. -/
def searched (set : SourceSet) : List SourceFile := set.files.filter fun file => !file.isDeclaration

/-- The messages of files, one file after the other. -/
def extractFrom (set : SourceSet) (extractor : Extractor) :
    List SourceFile → Except Halt (List Message)
  | [] => .ok []
  | file :: files => do
    let first ← extractor.extract file (set.nameOf file)
    return first ++ (← extractFrom set extractor files)

/-- The messages of a project. -/
def extract (set : SourceSet) (extractor : Extractor) : Except Halt (List Message) :=
  set.extractFrom extractor set.searched

end SourceSet

namespace Run

/-- What is said when a project is loaded. -/
def loadedLine (options : Options) (set : SourceSet) : String :=
  "Loaded " ++ toString set.files.length ++ " source file(s) from " ++ options.projectDir.text

/-- What is said of a message. -/
def messageLine (options : Options) (message : Message) : String :=
  "  " ++ Text.Style.cyan.apply options.colored message.id ++ " " ++ message.file ++ ":" ++
    toString message.offset ++ " " ++ Text.Style.dimmed.apply options.colored message.source

/-- Lines that are only said when much is to be said. -/
def said (options : Options) (lines : List String) : List String :=
  if options.verbose then lines else []

/-- The text of the catalog. -/
def catalogText (options : Options) (messages : List Message) : String :=
  (Catalog.document options.sourceLang messages).render

/-- Writes the catalog of extracted messages. -/
def finish (fs : FileSystem) (options : Options) (set : SourceSet) (messages : List Message) :
    Except WriteError (Summary × FileSystem) :=
  match Catalog.write fs options.outputDir (catalogText options messages) with
  | .error error => .error error
  | .ok (catalogPath, changed) =>
    .ok ({ messages, fileCount := set.searched.length, catalogPath }, changed)

end Run

/-- Runs an extraction. -/
def run (parser : TypeScript.ModuleParser) (fs : FileSystem) (options : Options) (extractor : Extractor) :
    Outcome :=
  match Source.load parser fs options.projectDir options.ignore with
  | .error error => { log := [], result := .error (.failure (.load error)), files := fs }
  | .ok set =>
    let loaded := Run.said options [Run.loadedLine options set]
    match set.extract extractor with
    | .error halt => { log := loaded, result := .error halt, files := fs }
    | .ok messages =>
      let log := loaded ++ Run.said options (messages.map (Run.messageLine options))
      match Run.finish fs options set messages with
      | .error error => { log, result := .error (.failure (.write error)), files := fs }
      | .ok (summary, changed) => { log, result := .ok summary, files := changed }

end Harvest

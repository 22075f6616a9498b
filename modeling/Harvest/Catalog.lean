import Harvest.Error
import Harvest.Message.Extract
import Harvest.Xml

/-!
# Catalogs

A catalog is a document that lists messages, each with its place, its text and its notes, under one
source language.
-/

namespace Harvest.Catalog

open Xml (Node Document)

/-- The name of a catalog's file. -/
def fileName : Path := ⟨"messages.xlf"⟩

/-- An element with nothing in it but text. -/
def textElement (name : String) (attributes : List (String × String)) (content : String) : Node :=
  .element name attributes [.text content]

/-- A note on a message. -/
def note (origin content : String) : Node :=
  textElement "note" [("from", origin), ("priority", "1")] content

/-- Where a message was found. -/
def location (message : Message) : Node :=
  .element "context-group" [("purpose", "location")] [
    textElement "context" [("context-type", "sourcefile")] message.file,
    textElement "context" [("context-type", "offset")] (toString message.offset)]

/-- One message. Its meaning comes before its description. -/
def unit (message : Message) : Node :=
  .element "trans-unit" [("id", message.id)] ([
    location message,
    textElement "source" [] message.source] ++
    (message.meaning.map (note "meaning")).toList ++
    (message.description.map (note "description")).toList)

/-- The catalog of messages in their order. The attribute for the language is spelled as the readers
of these catalogs expect it. -/
def document (sourceLang : String) (messages : List Message) : Document where
  version := "1.1"
  encoding := "utf-8"
  root :=
    .element "xliff" [("version", "1.2"), ("xmlns", "urn:oasis:names:tc:xliff:document:1.2")] [
      .element "file" [
          ("original", "typescript.file"),
          ("datatype", "plaintext"),
          ("source-languge", sourceLang)] [
        .element "body" [] (messages.map unit)]]

/-- Writes the text of a catalog into a directory, which must be there. A catalog in it is
overwritten. -/
def write (fs : FileSystem) (directory : Path) (text : String) :
    Except WriteError (Path × FileSystem) :=
  if !fs.isDirectory directory then .error (.missingDirectory directory)
  else
    let path := directory.join fileName
    match fs.writeText path text with
    | .ok changed => .ok (path, changed)
    | .error cause => .error (.unwritable path cause)

end Harvest.Catalog

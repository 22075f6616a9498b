import Harvest.Message.Classifier
import Harvest.Message.Identifier

/-!
# Messages and their extraction

The walk over a file looks at each call before those inside of it. The first call that fails or breaks
down settles the result.
-/

namespace Harvest

open TypeScript (Tree)

/-- An extracted message. -/
structure Message where
  id : String
  /-- The text as it stands in the source, with its quotation marks. -/
  source : String
  /-- The file, as seen from the project's root. -/
  file : String
  /-- The UTF-16 code units in front of the call. -/
  offset : Nat
  meaning : Option String
  description : Option String
  deriving DecidableEq, Repr

/-- How messages are recognized and named. -/
structure Extractor where
  classify : Classifier
  identify : Identifier

namespace Extractor

/-- A note on a message: a string literal among the arguments, without its quotation marks. -/
def note? (file : SourceFile) (call : CallSite) (position : Nat) : Except Halt (Option String) :=
  match call.plainArgument? position with
  | none => .ok none
  | some value =>
    if isStringLiteral value then (fun text => some (Identifier.strip text)) <$> file.text value.span
    else .ok none

/-- The message of one call, if it gives one. -/
def message? (extractor : Extractor) (file : SourceFile) (name : String) (call : CallSite) :
    Except Halt (Option Message) := do
  if !(← extractor.classify file call) then return none
  match call.argumentSpan? CallSite.textPosition with
  | none =>
    let offset ← file.offset call.span
    .error (.failure (.classification name offset Classifier.missingText))
  | some span =>
    let id ← extractor.identify file call
    let source ← file.text span
    let offset ← file.offset call.span
    let meaning ← note? file call CallSite.meaningPosition
    let description ← note? file call CallSite.descriptionPosition
    return some { id, source, file := name, offset, meaning, description }

/-- How far a walk over a file has come: the messages found, and what it has halted with. Behind a halt no
call is looked at any more. -/
structure Walk where
  messages : List Message
  halt : Option Halt

/-- Looks at one call; failures name the file as seen from the project's root. -/
def visit (extractor : Extractor) (file : SourceFile) (name : String) (call : CallSite)
    (soFar : Walk) : Walk :=
  match extractor.message? file name call with
  | .ok message => { soFar with messages := soFar.messages ++ message.toList }
  | .error halt => { soFar with halt := some (halt.inFile name) }

mutual

/-- Walks over a tree: a call is looked at before its callee and its arguments. -/
def walk (extractor : Extractor) (file : SourceFile) (name : String) : Tree → Walk → Walk
  | .call span chained callee arguments types, soFar =>
    if soFar.halt.isSome then soFar
    else
      let own := extractor.visit file name (.ofCall span chained callee arguments) soFar
      let inCallee := walk extractor file name callee own
      let inArguments := walkAll extractor file name arguments inCallee
      walkAll extractor file name types inArguments
  | .node _ _ parts, soFar => walkAll extractor file name parts soFar

/-- Walks over several trees, one after the other. -/
def walkAll (extractor : Extractor) (file : SourceFile) (name : String) : List Tree → Walk → Walk
  | [], soFar => soFar
  | tree :: more, soFar => walkAll extractor file name more (walk extractor file name tree soFar)

end

/-- The messages of a file, which is called `name` in them. -/
def extract (extractor : Extractor) (file : SourceFile) (name : String) :
    Except Halt (List Message) :=
  let done := walkAll extractor file name file.parsed.items ⟨[], none⟩
  match done.halt with
  | some halt => .error halt
  | none => .ok done.messages

end Extractor

end Harvest

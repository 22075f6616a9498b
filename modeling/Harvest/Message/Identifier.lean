import Harvest.Digest.Sha256
import Harvest.Message.Call

/-!
# Ids of messages

A message may be given its id. Otherwise the id is a digest of its text, its meaning and its
description as they stand in the source, so that equal messages have equal ids wherever they occur.
-/

namespace Harvest

/-- Gives a call's message its id, or says why it cannot. -/
abbrev Identifier := SourceFile → CallSite → Except Halt String

namespace Identifier

/-- A text without its first and its last character. -/
def strip (text : String) : String := String.ofList text.toList.tail.dropLast

/-- How many hexadecimal digits of the digest make an id. -/
def digestLength : Nat := 16

/-- Stands between the parts of a message, so that it shows where one ends. -/
def separator : Char := '\x1f'

/-- The source text of the argument at a position, or nothing. -/
def part (file : SourceFile) (call : CallSite) (position : Nat) : Except Halt String :=
  match call.argumentSpan? position with
  | none => .ok ""
  | some span => file.text span

/-- The parts of a message with the separator between them. -/
def joined (text meaning description : String) : String :=
  String.ofList (text.toList ++ separator :: (meaning.toList ++ separator :: description.toList))

/-- The text that a digest is made of. -/
def digestInput (file : SourceFile) (call : CallSite) : Except Halt String := do
  let text ← part file call CallSite.textPosition
  let meaning ← part file call CallSite.meaningPosition
  let description ← part file call CallSite.descriptionPosition
  return joined text meaning description

/-- The id that a text gives rise to. -/
def ofText (text : String) : String :=
  let digest := Digest.Sha256.digest text.toUTF8.data.toList
  String.ofList ((Digest.Sha256.hex digest).take digestLength)

/-- The fourth argument, if there is one, is the id: a string literal, without its quotation marks.
Otherwise the id is a digest. -/
def byDigest : Identifier := fun file call =>
  match call.argumentSpan? CallSite.idPosition with
  | none => ofText <$> digestInput file call
  | some span =>
    if (call.plainArgument? CallSite.idPosition).any isStringLiteral then strip <$> file.text span
    else do
      let offset ← file.offset call.span
      let found ← file.text span
      .error (.failure (.derivation file.path.text offset
        ("explicit id must be a string literal, found `" ++ found ++ "`")))

end Identifier

end Harvest

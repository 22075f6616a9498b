import Harvest.Message.Extract
import Harvest.Proofs.Source.Cut
import Harvest.Proofs.Traversal
import Harvest.TypeScript.Grammar

/-!
# A walk visits the calls in order

The walk over a file carries the messages found so far and what it has halted with, and goes on into the
parts of every tree. It comes to the same as going through the list of the file's calls and stopping
at the first one that halts. What one call gives is said here without the walk: `Halts` when it fails or
breaks down, `Describes` when it gives a message.
-/

namespace Harvest

open TypeScript (Tree)
open Traversal

variable {extractor : Extractor} {file : SourceFile} {name : String} {call : CallSite}

/-! ## What one call gives -/

/-- The classifier takes the call for a message. -/
def Extractor.accepts (extractor : Extractor) (file : SourceFile) (call : CallSite) : Bool :=
  match extractor.classify file call with
  | .ok accepted => accepted
  | .error _ => false

/-- A string literal, or a template without substitutions. -/
inductive StringLiteral : Tree → Prop where
  | string (value : TypeScript.StringValue) (span : Text.Span) (parts : List Tree) :
    StringLiteral (.node (.string value) span parts)
  | template (span : Text.Span) : StringLiteral (.node .template span [])

/-- The argument at a position is there, is not spread and is a string literal, so that it is a note. -/
def Noted (call : CallSite) (position : Nat) (value : Tree) : Prop :=
  call.arguments[position]? = some ⟨value, false⟩ ∧ StringLiteral value

/-- A place at which the code would have to be cut for the message of a call, and cannot be: in front of
the call, or around its text or one of its notes. -/
inductive Torn (file : SourceFile) (call : CallSite) : Prop where
  | offset (uncut : ¬ Text.IsBoundary file.code call.span.start)
  | text {argument : Argument} (given : call.arguments[0]? = some argument)
    (uncut : ¬ argument.value.span.Whole file.code)
  | meaning {value : Tree} (noted : Noted call 2 value) (uncut : ¬ value.span.Whole file.code)
  | description {value : Tree} (noted : Noted call 1 value) (uncut : ¬ value.span.Whole file.code)

/-- What the call halts with: it cannot be classified; or it is accepted and has no argument; or it is
accepted, has an argument and can get no id. The first of these counts. If it is none of them and the code
cannot be cut where it has to be, the call breaks down. -/
inductive Halts (extractor : Extractor) (file : SourceFile) (name : String) (call : CallSite) :
    Halt → Prop where
  | unclassified {halt : Halt} (refused : extractor.classify file call = .error halt) :
    Halts extractor file name call (halt.inFile name)
  | textless {offset : Nat} (accepted : extractor.classify file call = .ok true)
    (empty : call.arguments = []) (placed : file.offset call.span = .ok offset) :
    Halts extractor file name call
      (.failure (.classification name offset Classifier.missingText))
  | unidentified {halt : Halt} (accepted : extractor.classify file call = .ok true)
    (filled : call.arguments ≠ []) (refused : extractor.identify file call = .error halt) :
    Halts extractor file name call (halt.inFile name)
  | torn (accepted : extractor.classify file call = .ok true)
    (unhindered : call.arguments = [] ∨ ∃ id, extractor.identify file call = .ok id)
    (torn : Torn file call) : Halts extractor file name call .breakdown

/-- A note is there exactly when the argument at a position is one. It is then the argument's text without
its first and its last character. -/
inductive NoteAt (file : SourceFile) (call : CallSite) (position : Nat) : Option String → Prop where
  | present {value : Tree} {text : String} (noted : Noted call position value)
    (shown : file.text value.span = .ok text) :
    NoteAt file call position (some (Identifier.strip text))
  | absent (unnoted : ∀ value, ¬ Noted call position value) : NoteAt file call position none

/-- The message of a call, field by field. -/
structure Describes (extractor : Extractor) (file : SourceFile) (name : String) (call : CallSite)
    (message : Message) : Prop where
  id : extractor.identify file call = .ok message.id
  source : ∃ argument, call.arguments[0]? = some argument ∧
    file.text argument.value.span = .ok message.source
  fileName : message.file = name
  offset : file.offset call.span = .ok message.offset
  meaning : NoteAt file call 2 message.meaning
  description : NoteAt file call 1 message.description

/-- The test for string literals finds them. -/
theorem isStringLiteral_iff {value : Tree} : isStringLiteral value = true ↔ StringLiteral value := by
  constructor
  · intro taken
    unfold isStringLiteral at taken
    split at taken
    · exact .string _ _ _
    · rename_i span parts
      cases parts with
      | nil => exact .template span
      | cons => cases taken
    · cases taken
  · intro literal
    cases literal <;> rfl

/-- An argument that is not spread is found at its position. -/
theorem plainArgument?_eq_some {position : Nat} {value : Tree} :
    call.plainArgument? position = some value ↔ call.arguments[position]? = some ⟨value, false⟩ := by
  unfold CallSite.plainArgument?
  cases call.arguments[position]? with
  | none => exact ⟨nofun, nofun⟩
  | some argument =>
    obtain ⟨held, spread⟩ := argument
    cases spread <;> simp

private theorem note?_of_noted {position : Nat} {value : Tree} (noted : Noted call position value) :
    Extractor.note? file call position =
      (fun text => some (Identifier.strip text)) <$> file.text value.span := by
  unfold Extractor.note?
  rw [plainArgument?_eq_some.mpr noted.1]
  exact if_pos (isStringLiteral_iff.mpr noted.2)

private theorem note?_of_unnoted {position : Nat} (unnoted : ∀ value, ¬ Noted call position value) :
    Extractor.note? file call position = .ok none := by
  unfold Extractor.note?
  cases plain : call.plainArgument? position with
  | none => rfl
  | some value =>
    refine if_neg fun literal => unnoted value ⟨plainArgument?_eq_some.mp plain, ?_⟩
    exact isStringLiteral_iff.mp literal

/-- The notes that are taken are the notes that are there. -/
theorem note?_eq_ok {position : Nat} {note : Option String} :
    Extractor.note? file call position = .ok note ↔ NoteAt file call position note := by
  constructor
  · intro taken
    by_cases noted : ∃ value, Noted call position value
    · obtain ⟨value, noted⟩ := noted
      rw [note?_of_noted noted] at taken
      obtain ⟨text, shown, rfl⟩ := map_eq_ok.mp taken
      exact .present noted shown
    · have unnoted := not_exists.mp noted
      rw [note?_of_unnoted unnoted] at taken
      cases taken
      exact .absent unnoted
  · intro noteAt
    cases noteAt with
    | present noted shown =>
      rw [note?_of_noted noted, shown]
      rfl
    | absent unnoted => exact note?_of_unnoted unnoted

/-- Taking a note only breaks down, and only where one is there that cannot be cut out. -/
theorem note?_eq_error {position : Nat} {halt : Halt} :
    Extractor.note? file call position = .error halt ↔
      halt = .breakdown ∧ ∃ value, Noted call position value ∧ ¬ value.span.Whole file.code := by
  constructor
  · intro failed
    by_cases noted : ∃ value, Noted call position value
    · obtain ⟨value, noted⟩ := noted
      rw [note?_of_noted noted, map_eq_error, SourceFile.text_eq_error] at failed
      exact ⟨failed.1, value, noted, failed.2⟩
    · rw [note?_of_unnoted (not_exists.mp noted)] at failed
      cases failed
  · rintro ⟨rfl, value, noted, uncut⟩
    rw [note?_of_noted noted, map_eq_error, SourceFile.text_eq_error]
    exact ⟨rfl, uncut⟩

/-- At one position a call has at most one note. -/
theorem NoteAt.unique {position : Nat} {note other : Option String}
    (first : NoteAt file call position note)
    (second : NoteAt file call position other) : note = other :=
  Except.ok.inj ((note?_eq_ok.mpr first).symm.trans (note?_eq_ok.mpr second))

/-- A call has one message at most. -/
theorem Describes.unique {message other : Message}
    (first : Describes extractor file name call message)
    (second : Describes extractor file name call other) : message = other := by
  obtain ⟨argument, found, source⟩ := first.source
  obtain ⟨argument', found', source'⟩ := second.source
  cases found.symm.trans found'
  have sameId : message.id = other.id := Except.ok.inj (first.id.symm.trans second.id)
  have sameSource : message.source = other.source := Except.ok.inj (source.symm.trans source')
  have sameFile := first.fileName.trans second.fileName.symm
  have sameOffset : message.offset = other.offset := Except.ok.inj (first.offset.symm.trans second.offset)
  have sameMeaning := first.meaning.unique second.meaning
  have sameDescription := first.description.unique second.description
  cases message
  cases other
  simp only at sameId sameSource sameFile sameOffset sameMeaning sameDescription
  subst sameId sameSource sameFile sameOffset sameMeaning sameDescription
  rfl

/-- What a call gives: no message, its message or what it halts with. A failure names the file as seen from
the project's root. -/
def Extractor.outcome (extractor : Extractor) (file : SourceFile) (name : String) (call : CallSite) :
    Except Halt (Option Message) :=
  (extractor.message? file name call).mapError (·.inFile name)

/-! ## The cases of a call -/

private theorem message?_of_textless (accepted : extractor.classify file call = .ok true)
    (empty : call.arguments = []) :
    extractor.message? file name call = file.offset call.span >>= fun offset =>
      .error (.failure (.classification name offset Classifier.missingText)) := by
  simp only [Extractor.message?, accepted, CallSite.argumentSpan?, empty]
  rfl

private theorem message?_of_argument {argument : Argument}
    (accepted : extractor.classify file call = .ok true)
    (given : call.arguments[0]? = some argument) :
    extractor.message? file name call = extractor.identify file call >>= fun id =>
      file.text argument.value.span >>= fun source => file.offset call.span >>= fun offset =>
        Extractor.note? file call 2 >>= fun meaning => Extractor.note? file call 1 >>= fun description =>
          .ok (some { id, source, file := name, offset, meaning, description }) := by
  simp only [Extractor.message?, accepted, CallSite.argumentSpan?, CallSite.textPosition, given]
  rfl

private theorem arguments_cases (call : CallSite) :
    call.arguments = [] ∨ ∃ argument, call.arguments[0]? = some argument := by
  cases call.arguments with
  | nil => exact .inl rfl
  | cons argument others => exact .inr ⟨argument, rfl⟩

private theorem ne_nil_of_argument {argument : Argument} (given : call.arguments[0]? = some argument) :
    call.arguments ≠ [] := by
  intro empty
  rw [empty] at given
  cases given

/-- Only a call that the classifier declines gives no message. -/
theorem outcome_eq_none :
    extractor.outcome file name call = .ok none ↔ extractor.classify file call = .ok false := by
  rw [Extractor.outcome, mapError_eq_ok]
  cases classified : extractor.classify file call with
  | error halt =>
    rw [Extractor.message?, classified]
    exact ⟨nofun, nofun⟩
  | ok accepted =>
    cases accepted with
    | false =>
      rw [Extractor.message?, classified]
      exact ⟨fun _ => rfl, fun _ => rfl⟩
    | true =>
      refine ⟨fun given => ?_, nofun⟩
      obtain empty | ⟨argument, found⟩ := arguments_cases call
      · rw [message?_of_textless classified empty] at given
        obtain ⟨_, _, impossible⟩ := bind_eq_ok.mp given
        cases impossible
      · rw [message?_of_argument classified found] at given
        obtain ⟨_, _, given⟩ := bind_eq_ok.mp given
        obtain ⟨_, _, given⟩ := bind_eq_ok.mp given
        obtain ⟨_, _, given⟩ := bind_eq_ok.mp given
        obtain ⟨_, _, given⟩ := bind_eq_ok.mp given
        obtain ⟨_, _, given⟩ := bind_eq_ok.mp given
        cases given

/-- A call that the classifier accepts gives the message that describes it. -/
theorem outcome_eq_some {message : Message} :
    extractor.outcome file name call = .ok (some message) ↔
      extractor.classify file call = .ok true ∧ Describes extractor file name call message := by
  rw [Extractor.outcome, mapError_eq_ok]
  constructor
  · intro given
    cases classified : extractor.classify file call with
    | error halt =>
      rw [Extractor.message?, classified] at given
      cases given
    | ok accepted =>
      cases accepted with
      | false =>
        rw [Extractor.message?, classified] at given
        cases given
      | true =>
        refine ⟨rfl, ?_⟩
        obtain empty | ⟨argument, found⟩ := arguments_cases call
        · rw [message?_of_textless classified empty] at given
          obtain ⟨_, _, impossible⟩ := bind_eq_ok.mp given
          cases impossible
        · rw [message?_of_argument classified found] at given
          obtain ⟨id, identified, given⟩ := bind_eq_ok.mp given
          obtain ⟨source, shown, given⟩ := bind_eq_ok.mp given
          obtain ⟨offset, placed, given⟩ := bind_eq_ok.mp given
          obtain ⟨meaning, meant, given⟩ := bind_eq_ok.mp given
          obtain ⟨description, described, given⟩ := bind_eq_ok.mp given
          cases given
          exact ⟨identified, ⟨argument, found, shown⟩, rfl, placed, note?_eq_ok.mp meant,
            note?_eq_ok.mp described⟩
  · rintro ⟨accepted, identified, ⟨argument, found, shown⟩, rfl, placed, meant, described⟩
    rw [message?_of_argument accepted found, identified, shown, placed, note?_eq_ok.mpr meant,
      note?_eq_ok.mpr described]
    rfl

private theorem outcome_eq_error_of_textless {halt : Halt}
    (accepted : extractor.classify file call = .ok true) (empty : call.arguments = []) :
    extractor.outcome file name call = .error halt ↔ Halts extractor file name call halt := by
  rw [Extractor.outcome, mapError_eq_error, message?_of_textless accepted empty]
  constructor
  · rintro ⟨cause, given, rfl⟩
    obtain torn | ⟨offset, placed, failed⟩ := bind_eq_error.mp given
    · obtain ⟨rfl, uncut⟩ := SourceFile.offset_eq_error.mp torn
      exact .torn accepted (.inl empty) (.offset uncut)
    · cases failed
      exact .textless accepted empty placed
  · intro halts
    cases halts with
    | unclassified refused => cases accepted.symm.trans refused
    | textless _ _ placed =>
      rw [placed]
      exact ⟨_, rfl, rfl⟩
    | unidentified _ filled => exact absurd empty filled
    | torn _ _ torn =>
      cases torn with
      | offset uncut =>
        rw [SourceFile.offset_eq_error.mpr ⟨rfl, uncut⟩]
        exact ⟨_, rfl, rfl⟩
      | text given => exact absurd empty (ne_nil_of_argument given)
      | meaning noted =>
        have found := noted.1
        rw [empty] at found
        cases found
      | description noted =>
        have found := noted.1
        rw [empty] at found
        cases found

private theorem torn_of_cuts_eq_error {argument : Argument} (given : call.arguments[0]? = some argument)
    (id : String) {halt : Halt}
    (failed : (file.text argument.value.span >>= fun source => file.offset call.span >>= fun offset =>
      Extractor.note? file call 2 >>= fun meaning => Extractor.note? file call 1 >>= fun description =>
        Except.ok (some ({ id, source, file := name, offset, meaning, description } : Message))) =
          .error halt) : halt = .breakdown ∧ Torn file call := by
  simp only [bind_eq_error, SourceFile.text_eq_error, SourceFile.offset_eq_error, note?_eq_error] at failed
  obtain ⟨rfl, uncut⟩ | ⟨_, _, ⟨rfl, uncut⟩ | ⟨_, _, ⟨rfl, value, noted, uncut⟩ |
    ⟨_, _, ⟨rfl, value, noted, uncut⟩ | ⟨_, _, impossible⟩⟩⟩⟩ := failed
  · exact ⟨rfl, .text given uncut⟩
  · exact ⟨rfl, .offset uncut⟩
  · exact ⟨rfl, .meaning noted uncut⟩
  · exact ⟨rfl, .description noted uncut⟩
  · cases impossible

/-- All that is left to go wrong with a call that has its id are the cuts, one after the other. -/
private theorem cuts_eq_error {argument : Argument} (given : call.arguments[0]? = some argument)
    (id : String) {halt : Halt} :
    (file.text argument.value.span >>= fun source => file.offset call.span >>= fun offset =>
      Extractor.note? file call 2 >>= fun meaning => Extractor.note? file call 1 >>= fun description =>
        Except.ok (some ({ id, source, file := name, offset, meaning, description } : Message))) =
          .error halt ↔ halt = .breakdown ∧ Torn file call := by
  refine ⟨torn_of_cuts_eq_error given id, ?_⟩
  rintro ⟨rfl, torn⟩
  refine Halt.eq_breakdown_of_ne_ok (fun _ failed => (torn_of_cuts_eq_error given id failed).1) ?_
  intro message cutOut
  -- Nothing is torn once all the cuts have been made.
  simp only [bind_eq_ok] at cutOut
  obtain ⟨source, shown, offset, placed, meaning, meant, description, described, _⟩ := cutOut
  cases torn with
  | offset uncut => cases placed.symm.trans (SourceFile.offset_eq_error.mpr ⟨rfl, uncut⟩)
  | text given' uncut =>
    cases given.symm.trans given'
    cases shown.symm.trans (SourceFile.text_eq_error.mpr ⟨rfl, uncut⟩)
  | meaning noted uncut => cases meant.symm.trans (note?_eq_error.mpr ⟨rfl, _, noted, uncut⟩)
  | description noted uncut => cases described.symm.trans (note?_eq_error.mpr ⟨rfl, _, noted, uncut⟩)

private theorem outcome_eq_error_of_argument {halt : Halt} {argument : Argument}
    (accepted : extractor.classify file call = .ok true)
    (given : call.arguments[0]? = some argument) :
    extractor.outcome file name call = .error halt ↔ Halts extractor file name call halt := by
  have filled := ne_nil_of_argument given
  rw [Extractor.outcome, mapError_eq_error, message?_of_argument accepted given]
  cases identified : extractor.identify file call with
  | error cause =>
    constructor
    · rintro ⟨_, same, rfl⟩
      cases same
      exact .unidentified accepted filled identified
    · intro halts
      cases halts with
      | unclassified refused => cases accepted.symm.trans refused
      | textless _ empty => exact absurd empty filled
      | unidentified _ _ refused =>
        cases identified.symm.trans refused
        exact ⟨_, rfl, rfl⟩
      | torn _ unhindered =>
        obtain ⟨id, named⟩ := unhindered.resolve_left filled
        cases identified.symm.trans named
  | ok id =>
    constructor
    · rintro ⟨cause, failed, rfl⟩
      obtain ⟨rfl, torn⟩ := (cuts_eq_error given id).mp failed
      exact .torn accepted (.inr ⟨id, identified⟩) torn
    · intro halts
      cases halts with
      | unclassified refused => cases accepted.symm.trans refused
      | textless _ empty => exact absurd empty filled
      | unidentified _ _ refused => cases identified.symm.trans refused
      | torn _ _ torn => exact ⟨.breakdown, (cuts_eq_error given id).mpr ⟨rfl, torn⟩, rfl⟩

/-- What a call halts with is what it gives instead of a message. -/
theorem outcome_eq_error {halt : Halt} :
    extractor.outcome file name call = .error halt ↔ Halts extractor file name call halt := by
  cases classified : extractor.classify file call with
  | error cause =>
    rw [Extractor.outcome, mapError_eq_error, Extractor.message?, classified]
    constructor
    · rintro ⟨_, same, rfl⟩
      cases same
      exact .unclassified classified
    · intro halts
      cases halts with
      | unclassified refused =>
        cases classified.symm.trans refused
        exact ⟨_, rfl, rfl⟩
      | textless accepted => cases classified.symm.trans accepted
      | unidentified accepted => cases classified.symm.trans accepted
      | torn accepted => cases classified.symm.trans accepted
  | ok accepted =>
    cases accepted with
    | false =>
      rw [outcome_eq_none.mpr classified]
      refine ⟨nofun, fun halts => ?_⟩
      cases halts with
      | unclassified refused => cases classified.symm.trans refused
      | textless accepted => cases classified.symm.trans accepted
      | unidentified accepted => cases classified.symm.trans accepted
      | torn accepted => cases classified.symm.trans accepted
    | true =>
      obtain empty | ⟨argument, given⟩ := arguments_cases call
      · exact outcome_eq_error_of_textless classified empty
      · exact outcome_eq_error_of_argument classified given

/-- A call gives something exactly when it does not halt. -/
theorem exists_outcome_eq_ok : (∃ message, extractor.outcome file name call = .ok message) ↔
    ∀ halt, ¬ Halts extractor file name call halt := by
  cases given : extractor.outcome file name call with
  | ok message =>
    refine ⟨fun _ halt halts => ?_, fun _ => ⟨message, rfl⟩⟩
    cases given.symm.trans (outcome_eq_error.mpr halts)
  | error halt => exact ⟨nofun, fun fine => absurd (outcome_eq_error.mp given) (fine halt)⟩

/-- Nothing is torn in a file that is well cut. -/
theorem SourceFile.WellCut.not_torn (wellCut : file.WellCut) (member : call ∈ file.calls) :
    ¬ Torn file call := by
  intro torn
  cases torn with
  | offset uncut => exact uncut (wellCut.whole_call member).start
  | text given uncut => exact uncut (wellCut.whole_argument member (List.mem_of_getElem? given))
  | meaning noted uncut => exact uncut (wellCut.whole_argument member (List.mem_of_getElem? noted.1))
  | description noted uncut => exact uncut (wellCut.whole_argument member (List.mem_of_getElem? noted.1))

/-! ## The walk and the list of calls -/

namespace Extractor

/-- Goes through calls in order; behind a halt no call is visited. -/
def visitAll (extractor : Extractor) (file : SourceFile) (name : String) (calls : List CallSite)
    (soFar : Walk) : Walk :=
  calls.foldl (fun soFar call =>
    if soFar.halt.isSome then soFar else extractor.visit file name call soFar) soFar

private theorem visitAll_append (extractor : Extractor) (file : SourceFile) (name : String)
    (first second : List CallSite) (soFar : Walk) :
    extractor.visitAll file name (first ++ second) soFar =
      extractor.visitAll file name second (extractor.visitAll file name first soFar) :=
  List.foldl_append

private theorem visitAll_cons (extractor : Extractor) (file : SourceFile) (name : String) (call : CallSite)
    (calls : List CallSite) (found : List Message) :
    extractor.visitAll file name (call :: calls) ⟨found, none⟩ =
      extractor.visitAll file name calls (extractor.visit file name call ⟨found, none⟩) :=
  rfl

/-- A halt is latched: nothing that follows changes it. -/
theorem visitAll_of_halted (extractor : Extractor) (file : SourceFile) (name : String)
    (calls : List CallSite) (found : List Message) (halt : Halt) :
    extractor.visitAll file name calls ⟨found, some halt⟩ = ⟨found, some halt⟩ := by
  induction calls with
  | nil => rfl
  | cons call calls ih => exact ih

/-- A walk over several trees visits their calls in order, if the walk over each tree does. -/
theorem walkAll_eq_visitAll (extractor : Extractor) (file : SourceFile) (name : String)
    (trees : List Tree)
    (each : ∀ tree ∈ trees, ∀ soFar, extractor.walk file name tree soFar =
      extractor.visitAll file name (callsOf tree) soFar) (soFar : Walk) :
    extractor.walkAll file name trees soFar =
      extractor.visitAll file name (callsOfAll trees) soFar := by
  induction trees generalizing soFar with
  | nil => rfl
  | cons tree trees ih =>
    obtain ⟨first, others⟩ := List.forall_mem_cons.mp each
    rw [walkAll, callsOfAll, visitAll_append, first soFar, ih others]

/-- A walk over a tree visits its calls in order, from whatever the walk has come to before. -/
theorem walk_eq_visitAll (extractor : Extractor) (file : SourceFile) (name : String) (tree : Tree)
    (soFar : Walk) :
    extractor.walk file name tree soFar = extractor.visitAll file name (callsOf tree) soFar := by
  induction tree using Tree.induction generalizing soFar with
  | step tree ih =>
    cases tree with
    | node form span parts =>
      rw [walk, callsOf]
      exact walkAll_eq_visitAll extractor file name parts ih soFar
    | call span chained callee arguments types =>
      have inCallee := ih callee List.mem_cons_self
      have inArguments := walkAll_eq_visitAll extractor file name arguments fun part member =>
        ih part (List.mem_cons_of_mem _ (List.mem_append_left _ member))
      have inTypes := walkAll_eq_visitAll extractor file name types fun part member =>
        ih part (List.mem_cons_of_mem _ (List.mem_append_right _ member))
      obtain ⟨found, halt⟩ := soFar
      cases halt with
      | some halt =>
        rw [visitAll_of_halted, walk]
        rfl
      | none =>
        rw [callsOf, visitAll_cons, visitAll_append, visitAll_append, ← inCallee, ← inArguments,
          ← inTypes, walk]
        rfl

private theorem visit_of_ok {message : Option Message}
    (given : extractor.outcome file name call = .ok message) (soFar : Walk) :
    extractor.visit file name call soFar =
      { soFar with messages := soFar.messages ++ message.toList } := by
  unfold outcome at given
  unfold visit
  cases found : extractor.message? file name call with
  | error error =>
    rw [found] at given
    cases given
  | ok message' =>
    rw [found] at given
    cases given
    rfl

private theorem visit_of_error {halt : Halt}
    (given : extractor.outcome file name call = .error halt) (soFar : Walk) :
    extractor.visit file name call soFar = { soFar with halt := some halt } := by
  unfold outcome at given
  unfold visit
  cases found : extractor.message? file name call with
  | error cause =>
    rw [found] at given
    cases given
    rfl
  | ok message =>
    rw [found] at given
    cases given

/-- Calls of which none halts add their messages in order. -/
theorem visitAll_of_forall₂ {calls : List CallSite} {outcomes : List (Option Message)}
    (given : List.Forall₂ (fun call outcome => extractor.outcome file name call = .ok outcome)
      calls outcomes) (found : List Message) :
    extractor.visitAll file name calls ⟨found, none⟩ =
      ⟨found ++ outcomes.flatMap Option.toList, none⟩ := by
  induction given generalizing found with
  | nil => rw [List.flatMap_nil, List.append_nil]; rfl
  | cons first _ ih =>
    rw [visitAll_cons, visit_of_ok first, ih, List.flatMap_cons, List.append_assoc]

/-- **Run lemma of the walk.** The messages of a file are those of its calls in order, and what it halts
with is what the first call that halts does. -/
theorem extract_eq_mapM (extractor : Extractor) (file : SourceFile) (name : String) :
    extractor.extract file name =
      (fun outcomes => outcomes.flatMap Option.toList) <$>
        file.calls.mapM (extractor.outcome file name) := by
  have walked : extractor.walkAll file name file.parsed.items ⟨[], none⟩ =
      extractor.visitAll file name file.calls ⟨[], none⟩ :=
    walkAll_eq_visitAll extractor file name _
      (fun tree _ => walk_eq_visitAll extractor file name tree) _
  unfold extract
  rw [walked]
  cases traversed : file.calls.mapM (extractor.outcome file name) with
  | ok outcomes =>
    rw [visitAll_of_forall₂ (mapM_eq_ok.mp traversed)]
    rfl
  | error halt =>
    obtain ⟨before, call, after, split, fine, fails⟩ := mapM_eq_error.mp traversed
    obtain ⟨outcomes, passed⟩ := exists_mapM_eq_ok.mpr fine
    rw [split, visitAll_append, visitAll_of_forall₂ (mapM_eq_ok.mp passed), visitAll_cons,
      visit_of_error fails, visitAll_of_halted]
    rfl

end Extractor

/-! ## The extraction and its specification -/

/-- The messages among outcomes belong to the accepted calls, one to one. -/
theorem describes_of_outcomes {calls : List CallSite} {outcomes : List (Option Message)}
    (given : List.Forall₂ (fun call outcome => extractor.outcome file name call = .ok outcome)
      calls outcomes) :
    List.Forall₂ (Describes extractor file name) (calls.filter (extractor.accepts file))
      (outcomes.flatMap Option.toList) := by
  induction given with
  | nil => exact .nil
  | @cons call outcome calls outcomes first _ ih =>
    cases outcome with
    | none =>
      have refused : extractor.accepts file call = false := by
        simp only [Extractor.accepts, outcome_eq_none.mp first]
      rw [List.filter_cons_of_neg (by simp [refused]), List.flatMap_cons]
      exact ih
    | some message =>
      obtain ⟨classified, describes⟩ := outcome_eq_some.mp first
      have taken : extractor.accepts file call = true := by
        simp only [Extractor.accepts, classified]
      rw [List.filter_cons_of_pos taken, List.flatMap_cons]
      exact .cons describes ih

/-- The messages of an extraction describe the accepted calls one by one, in the order of the calls. -/
theorem describes_of_extract {messages : List Message}
    (extracted : extractor.extract file name = .ok messages) :
    List.Forall₂ (Describes extractor file name) (file.calls.filter (extractor.accepts file))
      messages := by
  rw [Extractor.extract_eq_mapM] at extracted
  obtain ⟨outcomes, traversed, rfl⟩ := map_eq_ok.mp extracted
  exact describes_of_outcomes (mapM_eq_ok.mp traversed)

/-- An extraction succeeds exactly when no call of the file halts it. -/
theorem exists_extract_eq_ok : (∃ messages, extractor.extract file name = .ok messages) ↔
    ∀ call ∈ file.calls, ∀ halt, ¬ Halts extractor file name call halt := by
  rw [Extractor.extract_eq_mapM]
  constructor
  · rintro ⟨_, extracted⟩ call member
    obtain ⟨outcomes, traversed, _⟩ := map_eq_ok.mp extracted
    exact exists_outcome_eq_ok.mp (exists_mapM_eq_ok.mp ⟨outcomes, traversed⟩ call member)
  · intro fine
    obtain ⟨outcomes, traversed⟩ := exists_mapM_eq_ok.mpr fun call member =>
      exists_outcome_eq_ok.mpr (fine call member)
    exact ⟨_, map_eq_ok.mpr ⟨outcomes, traversed, rfl⟩⟩

/-- An extraction halts with what the first halting call halts with. -/
theorem extract_eq_error {halt : Halt} : extractor.extract file name = .error halt ↔
    ∃ before call after, file.calls = before ++ call :: after ∧
      (∀ earlier ∈ before, ∀ other, ¬ Halts extractor file name earlier other) ∧
      Halts extractor file name call halt := by
  rw [Extractor.extract_eq_mapM, map_eq_error, mapM_eq_error]
  simp only [outcome_eq_error, exists_outcome_eq_ok]

/-- **The walk is its specification.** The calls of a file are all its calls, each listed once and
before those inside of it. An extraction succeeds exactly when none of them fails or breaks down, and then
gives one message for each accepted call, in order. Otherwise it ends as the first one does that fails or
breaks down. If the file is well cut, no call breaks down by its own cuts. -/
theorem extract_visits_calls (extractor : Extractor) (file : SourceFile) (name : String) :
    (∃ addresses, ListsCalls (callBelow? file.parsed.items) addresses file.calls ∧
      addresses.Pairwise fun earlier later => ¬ later <+: earlier) ∧
    ((∃ messages, extractor.extract file name = .ok messages) ↔
      ∀ call ∈ file.calls, ∀ halt, ¬ Halts extractor file name call halt) ∧
    (∀ messages, extractor.extract file name = .ok messages ↔
      (∀ call ∈ file.calls, ∀ halt, ¬ Halts extractor file name call halt) ∧
      List.Forall₂ (Describes extractor file name) (file.calls.filter (extractor.accepts file))
        messages) ∧
    (∀ halt, extractor.extract file name = .error halt ↔
      ∃ before call after, file.calls = before ++ call :: after ∧
        (∀ earlier ∈ before, ∀ other, ¬ Halts extractor file name earlier other) ∧
        Halts extractor file name call halt) ∧
    (file.WellCut → ∀ call ∈ file.calls, ¬ Torn file call) := by
  refine ⟨?_, exists_extract_eq_ok, fun messages => ⟨fun extracted => ?_, ?_⟩,
    fun _ => extract_eq_error, fun wellCut _ member => wellCut.not_torn member⟩
  · obtain ⟨addresses, listed⟩ := file.exists_listsCalls_calls
    exact ⟨addresses, listed, listed.increasing.imp not_prefix_of_lt⟩
  · exact ⟨exists_extract_eq_ok.mp ⟨messages, extracted⟩, describes_of_extract extracted⟩
  · rintro ⟨fine, described⟩
    obtain ⟨messages', extracted⟩ := exists_extract_eq_ok.mpr fine
    have unique : Relator.RightUnique (Describes extractor file name) := fun _ _ _ first second =>
      first.unique second
    rw [extracted, List.right_unique_forall₂' unique (describes_of_extract extracted) described]

/-- The extractor that takes calls of the given functions for messages. -/
def Extractor.named (functions : List String) : Extractor := ⟨.byName functions, .byDigest⟩

/-- A file with the given text. -/
def sampleFile (text : String) : SourceFile where
  index := 0
  path := ⟨"/src/a.ts"⟩
  code := text.toList
  parsed := (TypeScript.Module.parse? false text.toList).getD ⟨[]⟩
  isDeclaration := false

/-- One call inside of another: both give their messages. A call that fails inside of one that does
not: its failure is given. -/
theorem sampleFile_visits_calls :
    (∃ messages,
      (Extractor.named ["i18n"]).extract (sampleFile "i18n(i18n('in'), 'note')") "a.ts" =
        .ok messages ∧
      List.Forall₂ (Describes (.named ["i18n"]) (sampleFile "i18n(i18n('in'), 'note')") "a.ts")
        ((sampleFile "i18n(i18n('in'), 'note')").calls.filter
          ((Extractor.named ["i18n"]).accepts (sampleFile "i18n(i18n('in'), 'note')")))
        messages) ∧
    (∃ before call after, (sampleFile "i18n(i18n(), 'note')").calls = before ++ call :: after ∧
      Halts (.named ["i18n"]) (sampleFile "i18n(i18n(), 'note')") "a.ts" call
        (.failure (.classification "a.ts" 5 Classifier.missingText))) := by
  have whole : ((Extractor.named ["i18n"]).extract (sampleFile "i18n(i18n('in'), 'note')")
      "a.ts").isOk = true := by decide +kernel
  have broken : (Extractor.named ["i18n"]).extract (sampleFile "i18n(i18n(), 'note')") "a.ts" =
      .error (.failure (.classification "a.ts" 5 Classifier.missingText)) := by decide +kernel
  constructor
  · cases extracted : (Extractor.named ["i18n"]).extract (sampleFile "i18n(i18n('in'), 'note')")
        "a.ts" with
    | error error =>
      rw [extracted] at whole
      cases whole
    | ok messages =>
      exact ⟨messages, rfl, (((extract_visits_calls _ _ _).2.2.1 messages).mp extracted).2⟩
  · obtain ⟨before, call, after, split, _, halts⟩ :=
      ((extract_visits_calls _ _ _).2.2.2.1 _).mp broken
    exact ⟨before, call, after, split, halts⟩

end Harvest

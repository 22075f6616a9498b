import Harvest.Proofs.Message.Visit

/-!
# Faulty calls

Where calls of named functions give messages, a call can only fail in three ways: it has no arguments;
its first argument is spread; or its fourth argument is no plain string literal. Faults of its text come
before faults of its id. A call breaks down exactly where the code would have to be cut, for its message
or for its failure, and cannot be. All this is read off the tree and the code (`halts_named_iff`).
-/

namespace Harvest

open Traversal
open TypeScript (Tree ImportBinding)

/-! ## Faults, read off a tree -/

/-- What is called is one of the functions: an identifier of that name, an identifier whose first
binding among the imports of the file stands for one of them, or a member of that name. The member may
belong to an optional chain; one in brackets and a private one have no name here. -/
inductive Names (functions : List String) (file : SourceFile) : Tree → Prop where
  | own {name : String} {span : Text.Span} {parts : List Tree} (listed : name ∈ functions) :
    Names functions file (.node (.identifier name) span parts)
  | imported {name : String} {span : Text.Span} {parts : List Tree} {binding : ImportBinding}
    {before after : List ImportBinding} (bound : file.imports = before ++ binding :: after)
    (here : binding.localName = name) (first : ∀ earlier ∈ before, earlier.localName ≠ name)
    (listed : binding.importedName ∈ functions) :
    Names functions file (.node (.identifier name) span parts)
  | member {name : String} {chained : Bool} {span : Text.Span} {parts : List Tree}
    (listed : name ∈ functions) :
    Names functions file (.node (.member (some name) chained) span parts)

/-- A call of one of the functions. -/
def Calls (functions : List String) (file : SourceFile) (call : CallSite) : Prop :=
  ∃ callee, call.callee = some callee ∧ Names functions file callee

/-- A call without a text: it has no argument, or its first argument is spread. -/
def Textless (call : CallSite) : Prop :=
  call.arguments = [] ∨ ∃ first others, call.arguments = first :: others ∧ first.isSpread = true

/-- A call with an id that is none: its fourth argument is spread or no literal. -/
def UnfitId (call : CallSite) : Prop :=
  ∃ fourth, call.arguments[3]? = some fourth ∧ (fourth.isSpread = true ∨ ¬ StringLiteral fourth.value)

/-- The call fails, with the failure that names the file by `name`. -/
inductive CallFault (functions : List String) (file : SourceFile) (name : String) (call : CallSite) :
    ExtractError → Prop where
  | textless {offset : Nat} (called : Calls functions file call) (empty : call.arguments = [])
    (placed : file.offset call.span = .ok offset) :
    CallFault functions file name call (.classification name offset "missing message text argument")
  | spreadText {first : Argument} {others : List Argument} {offset : Nat}
    (called : Calls functions file call) (arguments : call.arguments = first :: others)
    (spread : first.isSpread = true) (placed : file.offset call.span = .ok offset) :
    CallFault functions file name call
      (.classification name offset "message text cannot be a spread argument")
  | idNotLiteral {fourth : Argument} {offset : Nat} {found : String}
    (called : Calls functions file call) (spoken : ¬ Textless call)
    (given : call.arguments[3]? = some fourth)
    (unfit : fourth.isSpread = true ∨ ¬ StringLiteral fourth.value)
    (placed : file.offset call.span = .ok offset) (shown : file.text fourth.value.span = .ok found) :
    CallFault functions file name call
      (.derivation name offset ("explicit id must be a string literal, found `" ++ found ++ "`"))

/-! ## Cuts, read off a tree -/

/-- The positions of the arguments whose text is cut out for a call that has a text. An id that is none
is shown in the failure. Otherwise the message shows the text; and the notes are shown if they are
literals, and hashed if no id is given. -/
inductive Reads (call : CallSite) : Nat → Prop where
  | text (fit : ¬ UnfitId call) : Reads call 0
  | id : Reads call 3
  | note {position : Nat} (isNote : position = 1 ∨ position = 2) (fit : ¬ UnfitId call)
    (needed : call.arguments[3]? = none ∨ ∃ value, Noted call position value) : Reads call position

/-- The code cannot be cut where the call needs it: in front of the call, or around an argument. -/
inductive Uncut (file : SourceFile) (call : CallSite) : Prop where
  | offset (uncut : ¬ Text.IsBoundary file.code call.span.start)
  | argument {position : Nat} {argument : Argument} (spoken : ¬ Textless call)
    (reads : Reads call position) (given : call.arguments[position]? = some argument)
    (uncut : ¬ argument.value.span.Whole file.code)

/-- A call of one of the functions that breaks down. -/
def Tears (functions : List String) (file : SourceFile) (call : CallSite) : Prop :=
  Calls functions file call ∧ Uncut file call

variable {functions : List String} {file : SourceFile} {name : String} {call : CallSite} {halt : Halt}

/-- Nothing is uncut in a file that is well cut. -/
theorem SourceFile.WellCut.not_tears (wellCut : file.WellCut) (member : call ∈ file.calls) :
    ¬ Tears functions file call := by
  rintro ⟨_, uncut⟩
  cases uncut with
  | offset uncut => exact uncut (wellCut.whole_call member).start
  | argument _ _ given uncut => exact uncut (wellCut.whole_argument member (List.mem_of_getElem? given))

/-! ## The classifier by names -/

private theorem importedName?_any_iff : (file.importedName? name).any functions.contains = true ↔
    ∃ before binding after, file.imports = before ++ binding :: after ∧ binding.localName = name ∧
      (∀ earlier ∈ before, earlier.localName ≠ name) ∧ binding.importedName ∈ functions := by
  unfold SourceFile.importedName?
  constructor
  · intro some
    obtain ⟨imported, found, listed⟩ := Option.any_eq_true _ _ |>.mp some
    obtain ⟨binding, bound, rfl⟩ := Option.map_eq_some_iff.mp found
    obtain ⟨here, before, after, split, first⟩ := List.find?_eq_some_iff_append.mp bound
    exact ⟨before, binding, after, split, by simpa using here, by simpa using first,
      by simpa using listed⟩
  · rintro ⟨before, binding, after, split, here, first, listed⟩
    have bound : file.imports.find? (fun binding => binding.localName == name) = some binding :=
      List.find?_eq_some_iff_append.mpr ⟨by simpa using here, before, after, split, by simpa using first⟩
    simpa [bound] using listed

/-- The test for callees finds the named ones. -/
theorem matchesCallee_iff {callee : Tree} :
    Classifier.matchesCallee functions file callee = true ↔ Names functions file callee := by
  constructor
  · intro taken
    unfold Classifier.matchesCallee at taken
    split at taken
    · rcases (Bool.or_eq_true _ _).mp taken with own | imported
      · exact .own (by simpa using own)
      · obtain ⟨before, binding, after, bound, here, first, listed⟩ := importedName?_any_iff.mp imported
        exact .imported bound here first listed
    · exact .member (by simpa using taken)
    · cases taken
  · intro names
    cases names with
    | own listed => simp [Classifier.matchesCallee, listed]
    | imported bound here first listed =>
      have imported := importedName?_any_iff.mpr ⟨_, _, _, bound, here, first, listed⟩
      simp [Classifier.matchesCallee, imported]
    | member listed => simpa [Classifier.matchesCallee] using listed

namespace Classifier

/-- What is wrong with the text of a call, in words. -/
theorem textFault?_eq_some {fault : String} : textFault? call = some fault ↔
    (call.arguments = [] ∧ fault = missingText) ∨
      ∃ first others, call.arguments = first :: others ∧ first.isSpread = true ∧
        fault = spreadText := by
  unfold textFault?
  cases call.arguments with
  | nil => simp [eq_comm (a := fault)]
  | cons first others => cases spread : first.isSpread <;> simp [spread, eq_comm (a := fault)]

/-- Nothing is wrong with the text of a call that has one. -/
theorem textFault?_eq_none : textFault? call = none ↔ ¬ Textless call := by
  rw [Option.eq_none_iff_forall_ne_some]
  simp only [ne_eq, textFault?_eq_some, Textless]
  constructor
  · rintro fine (empty | ⟨first, others, arguments, spread⟩)
    · exact fine _ (.inl ⟨empty, rfl⟩)
    · exact fine _ (.inr ⟨first, others, arguments, spread, rfl⟩)
  · rintro spoken _ (⟨empty, _⟩ | ⟨first, others, arguments, spread, _⟩)
    · exact spoken (.inl empty)
    · exact spoken (.inr ⟨first, others, arguments, spread⟩)

private theorem byName_of_fault (called : Calls functions file call) {fault : String}
    (wrong : textFault? call = some fault) :
    byName functions file call = file.offset call.span >>= fun offset =>
      .error (.failure (.classification file.path.text offset fault)) := by
  obtain ⟨callee, found, named⟩ := called
  simp only [byName, found, matchesCallee_iff.mpr named, Bool.not_true, Bool.false_eq_true, if_false,
    wrong]

private theorem byName_of_fine (called : Calls functions file call) (fine : textFault? call = none) :
    byName functions file call = .ok true := by
  obtain ⟨callee, found, named⟩ := called
  simp only [byName, found, matchesCallee_iff.mpr named, Bool.not_true, Bool.false_eq_true, if_false,
    fine]

private theorem byName_of_not_calls (uncalled : ¬ Calls functions file call) :
    byName functions file call = .ok false := by
  unfold byName
  cases found : call.callee with
  | none => rfl
  | some callee =>
    have unmatched : matchesCallee functions file callee = false := by
      rw [Bool.eq_false_iff]
      exact fun matched => uncalled ⟨callee, found, matchesCallee_iff.mp matched⟩
    simp only [unmatched, Bool.not_false, if_true]

/-- A call of the functions is accepted if it has a text; a call of anything else is not. -/
theorem byName_eq_true : byName functions file call = .ok true ↔
    Calls functions file call ∧ ¬ Textless call := by
  rw [← textFault?_eq_none]
  by_cases called : Calls functions file call
  · cases wrong : textFault? call with
    | none => exact ⟨fun _ => ⟨called, rfl⟩, fun _ => byName_of_fine called wrong⟩
    | some fault =>
      refine ⟨fun accepted => ?_, fun fine => by cases fine.2⟩
      rw [byName_of_fault called wrong] at accepted
      obtain ⟨_, _, impossible⟩ := bind_eq_ok.mp accepted
      cases impossible
  · rw [byName_of_not_calls called]
    exact ⟨nofun, fun fine => absurd fine.1 called⟩

/-- A call of the functions without a text fails where it stands. -/
theorem byName_eq_error : byName functions file call = .error halt ↔
    Calls functions file call ∧ ∃ fault, textFault? call = some fault ∧
      ((halt = .breakdown ∧ ¬ Text.IsBoundary file.code call.span.start) ∨
        ∃ offset, file.offset call.span = .ok offset ∧
          halt = .failure (.classification file.path.text offset fault)) := by
  by_cases called : Calls functions file call
  · cases wrong : textFault? call with
    | none =>
      rw [byName_of_fine called wrong]
      refine ⟨nofun, fun failed => ?_⟩
      obtain ⟨_, _, impossible, _⟩ := failed
      cases impossible
    | some fault =>
      rw [byName_of_fault called wrong]
      simp [called, bind_eq_error, SourceFile.offset_eq_error, eq_comm (a := halt)]
  · rw [byName_of_not_calls called]
    exact ⟨nofun, fun failed => absurd failed.1 called⟩

end Classifier

/-! ## The identifier by digests -/

/-- The fourth argument is absent, is an id or is none. -/
theorem id_cases (call : CallSite) :
    call.arguments[3]? = none ∨ (∃ value, Noted call 3 value) ∨
      ∃ fourth, call.arguments[3]? = some fourth ∧
        (fourth.isSpread = true ∨ ¬ StringLiteral fourth.value) := by
  cases given : call.arguments[3]? with
  | none => exact .inl rfl
  | some fourth =>
    right
    obtain ⟨value, spread⟩ := fourth
    by_cases fits : spread = false ∧ StringLiteral value
    · obtain ⟨rfl, literal⟩ := fits
      exact .inl ⟨value, given, literal⟩
    · refine .inr ⟨_, rfl, ?_⟩
      cases spread with
      | true => exact .inl rfl
      | false => exact .inr fun literal => fits ⟨rfl, literal⟩

/-- An id that fits is no unfit one. -/
theorem not_unfitId_of_noted {value : Tree} (noted : Noted call 3 value) : ¬ UnfitId call := by
  rintro ⟨fourth, given, unfit⟩
  cases noted.1.symm.trans given
  obtain spread | notLiteral := unfit
  · cases spread
  · exact notLiteral noted.2

namespace Identifier

/-- A part only breaks down, and only if its argument cannot be cut out. -/
theorem part_eq_error {position : Nat} : part file call position = .error halt ↔
    halt = .breakdown ∧ ∃ argument, call.arguments[position]? = some argument ∧
      ¬ argument.value.span.Whole file.code := by
  unfold part CallSite.argumentSpan?
  cases call.arguments[position]? <;> simp [SourceFile.text_eq_error]

/-- The text that is hashed is made of all three parts. -/
theorem digestInput_eq_ok {input : String} : digestInput file call = .ok input ↔
    ∃ text meaning description, part file call 0 = .ok text ∧ part file call 2 = .ok meaning ∧
      part file call 1 = .ok description ∧ input = joined text meaning description := by
  unfold digestInput
  simp only [bind_eq_ok, CallSite.textPosition, CallSite.meaningPosition, CallSite.descriptionPosition]
  constructor
  · rintro ⟨text, spoken, meaning, meant, description, described, given⟩
    cases given
    exact ⟨text, meaning, description, spoken, meant, described, rfl⟩
  · rintro ⟨text, meaning, description, spoken, meant, described, rfl⟩
    exact ⟨text, spoken, meaning, meant, description, described, rfl⟩

private theorem torn_of_digestInput_eq_error (failed : digestInput file call = .error halt) :
    halt = .breakdown ∧ ∃ position < 3, ∃ argument, call.arguments[position]? = some argument ∧
      ¬ argument.value.span.Whole file.code := by
  unfold digestInput at failed
  simp only [bind_eq_error, part_eq_error] at failed
  obtain ⟨rfl, torn⟩ | ⟨_, _, ⟨rfl, torn⟩ | ⟨_, _, ⟨rfl, torn⟩ | ⟨_, _, impossible⟩⟩⟩ := failed
  · exact ⟨rfl, _, by decide, torn⟩
  · exact ⟨rfl, _, by decide, torn⟩
  · exact ⟨rfl, _, by decide, torn⟩
  · cases impossible

/-- What is hashed breaks down if one of the parts does. -/
theorem digestInput_eq_error : digestInput file call = .error halt ↔
    halt = .breakdown ∧ ∃ position < 3, ∃ argument, call.arguments[position]? = some argument ∧
      ¬ argument.value.span.Whole file.code := by
  refine ⟨torn_of_digestInput_eq_error, ?_⟩
  rintro ⟨rfl, position, bound, torn⟩
  refine Halt.eq_breakdown_of_ne_ok (fun _ failed => (torn_of_digestInput_eq_error failed).1) ?_
  intro input hashed
  have broken : part file call position = .error .breakdown := part_eq_error.mpr ⟨rfl, torn⟩
  obtain ⟨_, _, _, spoken, meant, described, _⟩ := digestInput_eq_ok.mp hashed
  obtain rfl | rfl | rfl : position = 0 ∨ position = 1 ∨ position = 2 := by omega
  · cases spoken.symm.trans broken
  · cases described.symm.trans broken
  · cases meant.symm.trans broken

/-- Without a fourth argument the id is a digest. -/
theorem byDigest_of_absent (absent : call.arguments[3]? = none) :
    byDigest file call = ofText <$> digestInput file call := by
  simp [byDigest, CallSite.argumentSpan?, CallSite.idPosition, absent]

/-- An id that fits is taken without its quotation marks. -/
theorem byDigest_of_noted {value : Tree} (noted : Noted call 3 value) :
    byDigest file call = strip <$> file.text value.span := by
  have plain : call.plainArgument? 3 = some value := plainArgument?_eq_some.mpr noted.1
  have literal := isStringLiteral_iff.mpr noted.2
  simp [byDigest, CallSite.argumentSpan?, CallSite.idPosition, noted.1, plain, literal]

/-- An id that does not fit is shown. -/
theorem byDigest_of_unfit {fourth : Argument} (given : call.arguments[3]? = some fourth)
    (unfit : fourth.isSpread = true ∨ ¬ StringLiteral fourth.value) :
    byDigest file call = file.offset call.span >>= fun offset =>
      file.text fourth.value.span >>= fun found =>
        .error (.failure (.derivation file.path.text offset
          ("explicit id must be a string literal, found `" ++ found ++ "`"))) := by
  have refused : (call.plainArgument? 3).any isStringLiteral = false := by
    cases plain : call.plainArgument? 3 with
    | none => rfl
    | some value =>
      have same := (plainArgument?_eq_some.mp plain).symm.trans given
      cases same
      rw [Option.any_some, Bool.eq_false_iff, ne_eq, isStringLiteral_iff]
      exact unfit.resolve_left Bool.false_ne_true
  simp [byDigest, CallSite.argumentSpan?, CallSite.idPosition, given, refused]

/-- All that an id is made of can be cut out: the three parts if it is a digest, or else the id given. -/
structure Shown (file : SourceFile) (call : CallSite) : Prop where
  parts : call.arguments[3]? = none → ∀ position < 3, ∀ argument,
    call.arguments[position]? = some argument → argument.value.span.Whole file.code
  own : ∀ fourth, call.arguments[3]? = some fourth → fourth.value.span.Whole file.code

/-- All that can become of an id: it is found; or it does not fit, and is shown with the place of the
call; or the extraction breaks down on a cut. -/
inductive Identified (file : SourceFile) (call : CallSite) : Except Halt String → Prop where
  | found {id : String} (fit : ¬ UnfitId call) (shown : Shown file call) : Identified file call (.ok id)
  | unfit {fourth : Argument} {offset : Nat} {found : String} (given : call.arguments[3]? = some fourth)
    (unfit : fourth.isSpread = true ∨ ¬ StringLiteral fourth.value)
    (placed : file.offset call.span = .ok offset) (shown : file.text fourth.value.span = .ok found) :
    Identified file call (.error (.failure (.derivation file.path.text offset
      ("explicit id must be a string literal, found `" ++ found ++ "`"))))
  | torn (uncut : ¬ Textless call → Uncut file call) : Identified file call (.error .breakdown)

private theorem identified_of_absent (absent : call.arguments[3]? = none) :
    Identified file call (byDigest file call) := by
  have fit : ¬ UnfitId call := by
    rintro ⟨fourth, given, _⟩
    cases absent.symm.trans given
  rw [byDigest_of_absent absent]
  cases hashed : digestInput file call with
  | ok input =>
    refine .found fit ⟨fun _ position bound argument given => ?_, fun fourth given => ?_⟩
    · by_contra uncut
      cases hashed.symm.trans (digestInput_eq_error.mpr ⟨rfl, position, bound, argument, given, uncut⟩)
    · cases absent.symm.trans given
  | error cause =>
    obtain ⟨rfl, position, bound, argument, given, uncut⟩ := digestInput_eq_error.mp hashed
    refine .torn fun spoken => .argument spoken ?_ given uncut
    obtain rfl | isNote : position = 0 ∨ position = 1 ∨ position = 2 := by omega
    · exact .text fit
    · exact .note isNote fit (.inl absent)

private theorem identified_of_noted {value : Tree} (noted : Noted call 3 value) :
    Identified file call (byDigest file call) := by
  rw [byDigest_of_noted noted]
  cases shown : file.text value.span with
  | ok text =>
    refine .found (not_unfitId_of_noted noted) ⟨fun absent => ?_, fun fourth given => ?_⟩
    · cases absent.symm.trans noted.1
    · cases noted.1.symm.trans given
      by_contra uncut
      cases shown.symm.trans (SourceFile.text_eq_error.mpr ⟨rfl, uncut⟩)
  | error cause =>
    obtain ⟨rfl, uncut⟩ := SourceFile.text_eq_error.mp shown
    exact .torn fun spoken => .argument spoken .id noted.1 uncut

private theorem identified_of_unfit {fourth : Argument} (given : call.arguments[3]? = some fourth)
    (unfit : fourth.isSpread = true ∨ ¬ StringLiteral fourth.value) :
    Identified file call (byDigest file call) := by
  rw [byDigest_of_unfit given unfit]
  cases placed : file.offset call.span with
  | error cause =>
    obtain ⟨rfl, uncut⟩ := SourceFile.offset_eq_error.mp placed
    exact .torn fun _ => .offset uncut
  | ok offset =>
    cases shown : file.text fourth.value.span with
    | error cause =>
      obtain ⟨rfl, uncut⟩ := SourceFile.text_eq_error.mp shown
      exact .torn fun spoken => .argument spoken .id given uncut
    | ok found => exact .unfit given unfit placed shown

/-- Whatever the fourth argument is, the identifier gives the id, its failure or a breakdown. -/
theorem identified (file : SourceFile) (call : CallSite) :
    Identified file call (byDigest file call) := by
  obtain absent | ⟨value, noted⟩ | ⟨fourth, given, unfit⟩ := id_cases call
  · exact identified_of_absent absent
  · exact identified_of_noted noted
  · exact identified_of_unfit given unfit

end Identifier

/-! ## Both -/

/-- An accepted call has an argument to take the text from. -/
theorem arguments_ne_nil_of_accepted (accepted : Classifier.byName functions file call = .ok true) :
    call.arguments ≠ [] := fun empty => (Classifier.byName_eq_true.mp accepted).2 (.inl empty)

/-- What a call that has its id still needs is needed for its message. -/
private theorem torn_of_uncut (uncut : Uncut file call) (shown : Identifier.Shown file call) :
    Torn file call := by
  cases uncut with
  | offset uncut => exact .offset uncut
  | argument _ reads given uncut =>
    cases reads with
    | text => exact .text given uncut
    | id => exact absurd (shown.own _ given) uncut
    | note isNote _ needed =>
      obtain absent | ⟨value, noted⟩ := needed
      · exact absurd (shown.parts absent _ (by omega) _ given) uncut
      · cases noted.1.symm.trans given
        obtain rfl | rfl := isNote
        · exact .description noted uncut
        · exact .meaning noted uncut

private theorem uncut_of_torn (torn : Torn file call) (spoken : ¬ Textless call) (fit : ¬ UnfitId call) :
    Uncut file call := by
  cases torn with
  | offset uncut => exact .offset uncut
  | text given uncut => exact .argument spoken (.text fit) given uncut
  | meaning noted uncut => exact .argument spoken (.note (.inr rfl) fit (.inr ⟨_, noted⟩)) noted.1 uncut
  | description noted uncut =>
    exact .argument spoken (.note (.inl rfl) fit (.inr ⟨_, noted⟩)) noted.1 uncut

/-- A call that halts is at fault, or cannot be cut. -/
private theorem callFault_or_tears_of_halts (halts : Halts (.named functions) file name call halt) :
    (∃ error, halt = .failure error ∧ CallFault functions file name call error) ∨
      (halt = .breakdown ∧ Tears functions file call) := by
  cases halts with
  | unclassified refused =>
    obtain ⟨called, _, fault, ⟨rfl, uncut⟩ | ⟨offset, placed, rfl⟩⟩ :=
      Classifier.byName_eq_error.mp refused
    · exact .inr ⟨rfl, called, .offset uncut⟩
    · refine .inl ⟨_, rfl, ?_⟩
      rcases Classifier.textFault?_eq_some.mp fault with
        ⟨empty, rfl⟩ | ⟨first, others, arguments, spread, rfl⟩
      · exact .textless called empty placed
      · exact .spreadText called arguments spread placed
  | textless accepted empty => exact absurd empty (arguments_ne_nil_of_accepted accepted)
  | unidentified accepted _ refused =>
    obtain ⟨called, spoken⟩ := Classifier.byName_eq_true.mp accepted
    have refused : Identifier.byDigest file call = .error _ := refused
    have identified := Identifier.identified file call
    rw [refused] at identified
    cases identified with
    | unfit given unfit placed shown =>
      exact .inl ⟨_, rfl, .idNotLiteral called spoken given unfit placed shown⟩
    | torn uncut => exact .inr ⟨rfl, called, uncut spoken⟩
  | torn accepted unhindered torn =>
    obtain ⟨called, spoken⟩ := Classifier.byName_eq_true.mp accepted
    obtain ⟨id, named⟩ := unhindered.resolve_left (arguments_ne_nil_of_accepted accepted)
    have named : Identifier.byDigest file call = .ok id := named
    have identified := Identifier.identified file call
    rw [named] at identified
    cases identified with
    | found fit => exact .inr ⟨rfl, called, uncut_of_torn torn spoken fit⟩

private theorem CallFault.halts {error : ExtractError} (fault : CallFault functions file name call error) :
    Halts (.named functions) file name call (.failure error) := by
  cases fault with
  | textless called empty placed =>
    have missing := Classifier.textFault?_eq_some.mpr (.inl ⟨empty, rfl⟩)
    have refused : (Extractor.named functions).classify file call = .error _ :=
      Classifier.byName_eq_error.mpr ⟨called, _, missing, .inr ⟨_, placed, rfl⟩⟩
    exact .unclassified refused
  | spreadText called arguments spread placed =>
    have spreads := Classifier.textFault?_eq_some.mpr (.inr ⟨_, _, arguments, spread, rfl⟩)
    have refused : (Extractor.named functions).classify file call = .error _ :=
      Classifier.byName_eq_error.mpr ⟨called, _, spreads, .inr ⟨_, placed, rfl⟩⟩
    exact .unclassified refused
  | @idNotLiteral fourth offset found called spoken given unfit placed shown =>
    have accepted : (Extractor.named functions).classify file call = .ok true :=
      Classifier.byName_eq_true.mpr ⟨called, spoken⟩
    have refused : Identifier.byDigest file call = .error (.failure (.derivation file.path.text offset
        ("explicit id must be a string literal, found `" ++ found ++ "`"))) := by
      rw [Identifier.byDigest_of_unfit given unfit, placed, shown]
      rfl
    exact .unidentified accepted (arguments_ne_nil_of_accepted accepted) refused

/-- A failure for an id that does not fit has cut all that a call needs. -/
private theorem not_uncut_of_unfit {fourth : Argument} {offset : Nat} {found : String}
    (given : call.arguments[3]? = some fourth)
    (unfit : fourth.isSpread = true ∨ ¬ StringLiteral fourth.value)
    (placed : file.offset call.span = .ok offset) (shown : file.text fourth.value.span = .ok found) :
    ¬ Uncut file call := by
  intro uncut
  cases uncut with
  | offset uncut => cases placed.symm.trans (SourceFile.offset_eq_error.mpr ⟨rfl, uncut⟩)
  | argument _ reads given' uncut =>
    cases reads with
    | text fit => exact absurd ⟨fourth, given, unfit⟩ fit
    | note _ fit => exact absurd ⟨fourth, given, unfit⟩ fit
    | id =>
      cases given.symm.trans given'
      cases shown.symm.trans (SourceFile.text_eq_error.mpr ⟨rfl, uncut⟩)

private theorem Tears.halts (tears : Tears functions file call) :
    Halts (.named functions) file name call .breakdown := by
  obtain ⟨called, uncut⟩ := tears
  by_cases textless : Textless call
  · cases uncut with
    | argument spoken => exact absurd textless spoken
    | offset uncut =>
      obtain ⟨fault, missing⟩ : ∃ fault, Classifier.textFault? call = some fault := by
        cases missing : Classifier.textFault? call with
        | some fault => exact ⟨fault, rfl⟩
        | none => exact absurd textless (Classifier.textFault?_eq_none.mp missing)
      have refused : (Extractor.named functions).classify file call = .error .breakdown :=
        Classifier.byName_eq_error.mpr ⟨called, fault, missing, .inl ⟨rfl, uncut⟩⟩
      exact .unclassified refused
  · have accepted : (Extractor.named functions).classify file call = .ok true :=
      Classifier.byName_eq_true.mpr ⟨called, textless⟩
    have identified := Identifier.identified file call
    generalize named : Identifier.byDigest file call = outcome at identified
    cases identified with
    | found _ shown => exact .torn accepted (.inr ⟨_, named⟩) (torn_of_uncut uncut shown)
    | unfit given unfit placed shown => exact absurd uncut (not_uncut_of_unfit given unfit placed shown)
    | torn => exact .unidentified accepted (arguments_ne_nil_of_accepted accepted) named

/-- **A call of the named functions fails exactly by its faults, and breaks down exactly on its cuts.** -/
theorem halts_named_iff : Halts (.named functions) file name call halt ↔
    (∃ error, halt = .failure error ∧ CallFault functions file name call error) ∨
      (halt = .breakdown ∧ Tears functions file call) := by
  refine ⟨callFault_or_tears_of_halts, ?_⟩
  rintro (⟨error, rfl, fault⟩ | ⟨rfl, tears⟩)
  · exact fault.halts
  · exact tears.halts

end Harvest

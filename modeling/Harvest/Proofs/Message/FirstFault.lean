import Harvest.Proofs.Message.Fault

/-!
# The first faulty call of a file

Where calls of named functions give messages, whether an extraction fails can be read off the tree: it
fails when a call of one of the functions lacks its text or is given an id that is none. Several calls
may be at fault, one inside of another, and one call may be at fault twice. The failure is that of the
call with the first address, and a fault of its text counts before a fault of its id. Where the code
cannot be cut at the right places, the first call that needs such a cut breaks down instead.
-/

namespace Harvest

/-- A call that is at fault. -/
structure Faulty (functions : List String) (file : SourceFile) (call : CallSite) : Prop where
  named : Calls functions file call
  unfit : Textless call ∨ UnfitId call

/-- What a faulty call fails with, and who says so: the classifier for its text, the identifier for its
id. -/
inductive FailsWith (functions : List String) (file : SourceFile) (name : String) (call : CallSite) :
    ExtractError → Prop where
  | unclassified {offset : Nat} {message : String} (textless : Textless call)
    (placed : file.offset call.span = .ok offset)
    (refused : Classifier.byName functions file call =
      .error (.failure (.classification file.path.text offset message))) :
    FailsWith functions file name call (.classification name offset message)
  | unidentified {offset : Nat} {message : String} (spoken : ¬ Textless call) (unfit : UnfitId call)
    (placed : file.offset call.span = .ok offset)
    (accepted : Classifier.byName functions file call = .ok true)
    (refused : Identifier.byDigest file call =
      .error (.failure (.derivation file.path.text offset message))) :
    FailsWith functions file name call (.derivation name offset message)

variable {functions : List String} {file : SourceFile} {name : String} {call : CallSite}
  {error : ExtractError}

/-! ## Faulty calls fail -/

/-- The classifier speaks of a call without a text, and the identifier of one whose id does not fit. -/
theorem failsWith_iff : FailsWith functions file name call error ↔
    CallFault functions file name call error := by
  constructor
  · intro failsWith
    cases failsWith with
    | unclassified _ placed refused =>
      obtain ⟨called, fault, wrong, ⟨impossible, _⟩ | ⟨offset, _, same⟩⟩ :=
        Classifier.byName_eq_error.mp refused
      · cases impossible
      · cases same
        rcases Classifier.textFault?_eq_some.mp wrong with
          ⟨empty, rfl⟩ | ⟨first, others, arguments, spread, rfl⟩
        · exact .textless called empty placed
        · exact .spreadText called arguments spread placed
    | unidentified spoken _ placed accepted refused =>
      have identified := Identifier.identified file call
      rw [refused] at identified
      cases identified with
      | unfit given unfit _ shown =>
        exact .idNotLiteral (Classifier.byName_eq_true.mp accepted).1 spoken given unfit placed shown
  · intro fault
    cases fault with
    | textless called empty placed =>
      have missing := Classifier.textFault?_eq_some.mpr (.inl ⟨empty, rfl⟩)
      exact .unclassified (.inl empty) placed
        (Classifier.byName_eq_error.mpr ⟨called, _, missing, .inr ⟨_, placed, rfl⟩⟩)
    | spreadText called arguments spread placed =>
      have spreads := Classifier.textFault?_eq_some.mpr (.inr ⟨_, _, arguments, spread, rfl⟩)
      exact .unclassified (.inr ⟨_, _, arguments, spread⟩) placed
        (Classifier.byName_eq_error.mpr ⟨called, _, spreads, .inr ⟨_, placed, rfl⟩⟩)
    | idNotLiteral called spoken given unfit placed shown =>
      refine .unidentified spoken ⟨_, given, unfit⟩ placed
        (Classifier.byName_eq_true.mpr ⟨called, spoken⟩) ?_
      rw [Identifier.byDigest_of_unfit given unfit, placed, shown]
      rfl

/-- What fails so is at fault. -/
theorem FailsWith.faulty (failsWith : FailsWith functions file name call error) :
    Faulty functions file call := by
  cases failsWith with
  | unclassified textless _ refused => exact ⟨(Classifier.byName_eq_error.mp refused).1, .inl textless⟩
  | unidentified _ unfit _ accepted => exact ⟨(Classifier.byName_eq_true.mp accepted).1, .inr unfit⟩

/-- A faulty call fails, with the failure of its first fault, unless it breaks down on the way. -/
theorem Faulty.exists_failsWith (faulty : Faulty functions file call)
    (untorn : ¬ Tears functions file call) (name : String) :
    ∃ error, FailsWith functions file name call error := by
  have called := faulty.named
  have boundary : Text.IsBoundary file.code call.span.start := by
    by_contra uncut
    exact untorn ⟨called, .offset uncut⟩
  obtain ⟨offset, placed⟩ := SourceFile.exists_offset_eq_ok boundary
  simp only [failsWith_iff]
  by_cases textless : Textless call
  · obtain empty | ⟨first, others, arguments, spread⟩ := textless
    · exact ⟨_, .textless called empty placed⟩
    · exact ⟨_, .spreadText called arguments spread placed⟩
  · obtain ⟨fourth, given, unfit⟩ := faulty.unfit.resolve_left textless
    have whole : fourth.value.span.Whole file.code := by
      by_contra uncut
      exact untorn ⟨called, .argument textless .id given uncut⟩
    obtain ⟨found, shown⟩ := SourceFile.exists_text_eq_ok whole
    exact ⟨_, .idNotLiteral called textless given unfit placed shown⟩

/-- With named functions a call halts if it is faulty or torn, and for nothing else: the walk never has to
refuse a call that was accepted. -/
theorem exists_halts_iff (name : String) : (∃ halt, Halts (.named functions) file name call halt) ↔
    Faulty functions file call ∨ Tears functions file call := by
  simp only [halts_named_iff, ← failsWith_iff]
  constructor
  · rintro ⟨_, ⟨error, _, failsWith⟩ | ⟨_, torn⟩⟩
    · exact .inl failsWith.faulty
    · exact .inr torn
  · intro halting
    by_cases torn : Tears functions file call
    · exact ⟨.breakdown, .inr ⟨rfl, torn⟩⟩
    · obtain ⟨error, failsWith⟩ := (halting.resolve_right torn).exists_failsWith torn name
      exact ⟨.failure error, .inl ⟨error, rfl, failsWith⟩⟩

/-! ## The first address -/

namespace ListsCalls

variable {callAt? : Address → Option CallSite} {addresses : List Address} {calls : List CallSite}
  {P : CallSite → Prop}

end ListsCalls

end Harvest

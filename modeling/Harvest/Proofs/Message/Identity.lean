import Harvest.Proofs.Message.FirstFault

/-!
# What an id depends on

The id of a message is the digest of its text, its meaning and its description, or else its fourth
argument. Where the call stands and what is called does not matter to it. Before they are hashed, the
three parts are joined with a separator between them. As long as it occurs in none of them, they can be
told from what is hashed, so that no two messages are mixed up before the hash function is applied.
-/

namespace Harvest

/-! ## Digests -/

namespace Digest.Sha256

/-- A number is written in as many bytes as the width says. -/
@[simp] theorem length_bigEndian (width n : Nat) : (bigEndian width n).length = width := by
  induction width with
  | zero => rfl
  | succ width ih => rw [bigEndian, List.length_cons, ih]

private theorem length_digest (message : List UInt8) : (digest message).length = 32 := by
  simp [digest, State.words]

private theorem length_hex (bytes : List UInt8) : (hex bytes).length = 2 * bytes.length := by
  simp [hex, Nat.mul_comm]

/-- The digits that a digest is written with. -/
def digits : List Char := "0123456789abcdef".toList

private theorem hexDigit_mem : ∀ n, n < 16 → hexDigit n ∈ digits := by decide

private theorem mem_digits_of_mem_hex {bytes : List UInt8} {c : Char} (member : c ∈ hex bytes) : c ∈ digits := by
  obtain ⟨byte, _, written⟩ := List.mem_flatMap.mp member
  have bound := byte.toNat_lt
  rcases List.mem_cons.mp written with rfl | second
  · exact hexDigit_mem _ (by omega)
  · rw [List.mem_singleton.mp second]
    exact hexDigit_mem _ (by omega)

end Digest.Sha256

/-! ## Parts that are joined -/

/-- The parts that make a message what it is, as they stand in the source. One that is absent is
empty. -/
@[ext] structure MessageParts where
  text : String
  meaning : String
  description : String
  deriving DecidableEq

/-- The separator occurs in none of the parts. -/
def MessageParts.Unseparated (parts : MessageParts) : Prop :=
  Identifier.separator ∉ parts.text.toList ∧ Identifier.separator ∉ parts.meaning.toList ∧
    Identifier.separator ∉ parts.description.toList

instance (parts : MessageParts) : Decidable parts.Unseparated := inferInstanceAs (Decidable (_ ∧ _ ∧ _))

/-- What stands before the first separator, and what stands behind it, can be told from both joined. -/
theorem append_separator_inj {α : Type} {separator : α} {front front' back back' : List α}
    (clean : separator ∉ front) (clean' : separator ∉ front')
    (same : front ++ separator :: back = front' ++ separator :: back') :
    front = front' ∧ back = back' := by
  induction front generalizing front' with
  | nil =>
    cases front' with
    | nil => exact ⟨rfl, (List.cons.inj same).2⟩
    | cons first others =>
      have here := (List.cons.inj same).1
      exact absurd (here ▸ List.mem_cons_self) clean'
  | cons first others ih =>
    cases front' with
    | nil =>
      have here := (List.cons.inj same).1
      exact absurd (here ▸ List.mem_cons_self) clean
    | cons first' others' =>
      obtain ⟨rfl, rest⟩ := List.cons.inj same
      obtain ⟨rfl, rfl⟩ := ih (List.not_mem_of_not_mem_cons clean) (List.not_mem_of_not_mem_cons clean') rest
      exact ⟨rfl, rfl⟩

namespace Identifier

variable {file file' : SourceFile} {call call' : CallSite}

/-- The parts of a call's message, if they can be cut out of the file. -/
def parts (file : SourceFile) (call : CallSite) : Except Halt MessageParts := do
  let text ← part file call CallSite.textPosition
  let meaning ← part file call CallSite.meaningPosition
  let description ← part file call CallSite.descriptionPosition
  return { text, meaning, description }

/-- The bytes of a text. -/
def bytesOf (text : String) : List UInt8 := text.toUTF8.data.toList

/-- The bytes that are hashed for a call. -/
def hashed (file : SourceFile) (call : CallSite) : Except Halt (List UInt8) :=
  bytesOf <$> digestInput file call

private theorem eq_of_bytesOf_eq {text text' : String} (same : bytesOf text = bytesOf text') : text = text' := by
  unfold bytesOf at same
  rw [Array.toList_inj, ← ByteArray.ext_iff] at same
  simpa only [String.toUTF8_eq_toByteArray, String.toByteArray_inj] using same

/-- What is hashed are the parts with the separator between them. -/
theorem hashed_eq_map_parts (file : SourceFile) (call : CallSite) :
    hashed file call =
      (fun parts => bytesOf (joined parts.text parts.meaning parts.description)) <$> parts file call := by
  unfold hashed parts digestInput
  cases part file call CallSite.textPosition with
  | error halt => rfl
  | ok text =>
    cases part file call CallSite.meaningPosition with
    | error halt => rfl
    | ok meaning => cases part file call CallSite.descriptionPosition <;> rfl

/-- Two calls with parts free of the separator are hashed alike only if their parts agree. -/
theorem parts_of_hashed {own own' : MessageParts} (cut : parts file call = .ok own)
    (cut' : parts file' call' = .ok own') (clean : own.Unseparated) (clean' : own'.Unseparated)
    (same : hashed file call = hashed file' call') : own = own' := by
  rw [hashed_eq_map_parts, hashed_eq_map_parts, cut, cut'] at same
  have joined := String.ofList_inj.mp (eq_of_bytesOf_eq (Except.ok.inj same))
  obtain ⟨text, rest⟩ := append_separator_inj clean.1 clean'.1 joined
  obtain ⟨meaning, description⟩ := append_separator_inj clean.2.1 clean'.2.1 rest
  exact MessageParts.ext (String.toList_inj.mp text) (String.toList_inj.mp meaning)
    (String.toList_inj.mp description)

/-! ## Ids -/

/-- An id that is a digest: sixteen hexadecimal digits in lower case. -/
structure IsDigest (id : String) : Prop where
  length : id.length = 16
  hexadecimal : ∀ c ∈ id.toList, c ∈ "0123456789abcdef".toList

private theorem isDigest_ofText (text : String) : IsDigest (ofText text) := by
  constructor
  · simp [ofText, Digest.Sha256.length_hex, Digest.Sha256.length_digest, digestLength]
  · intro c member
    rw [ofText, String.toList_ofList] at member
    exact Digest.Sha256.mem_digits_of_mem_hex (List.mem_of_mem_take member)

/-- A call that is given no id gets one from what is hashed. -/
theorem byDigest_of_hashed (short : call.arguments.length < 4) :
    byDigest file call = (fun bytes => String.ofList
      ((Digest.Sha256.hex (Digest.Sha256.digest bytes)).take digestLength)) <$> hashed file call := by
  have absent : call.arguments[3]? = none := List.getElem?_eq_none (Nat.le_of_lt_succ short)
  rw [byDigest_of_absent absent, hashed]
  cases digestInput file call <;> rfl

/-- A call that is given no id gets one if its parts can be cut out of the file. -/
theorem exists_byDigest_eq_ok_iff (short : call.arguments.length < 4) :
    (∃ id, byDigest file call = .ok id) ↔
      ∀ position < 3, ∀ argument, call.arguments[position]? = some argument →
        argument.value.span.Whole file.code := by
  have absent : call.arguments[3]? = none := List.getElem?_eq_none (Nat.le_of_lt_succ short)
  rw [byDigest_of_absent absent]
  cases hashed : digestInput file call with
  | error halt =>
    refine ⟨nofun, fun whole => ?_⟩
    obtain ⟨_, position, bound, argument, given, uncut⟩ := digestInput_eq_error.mp hashed
    exact absurd (whole position bound argument given) uncut
  | ok input =>
    refine ⟨fun _ position bound argument given => ?_, fun _ => ⟨_, rfl⟩⟩
    by_contra uncut
    cases hashed.symm.trans (digestInput_eq_error.mpr ⟨rfl, position, bound, argument, given, uncut⟩)

/-- The id of a call that is given none is a digest. -/
theorem isDigest_of_byDigest (short : call.arguments.length < 4) {id : String}
    (found : byDigest file call = .ok id) : IsDigest id := by
  have absent : call.arguments[3]? = none := List.getElem?_eq_none (Nat.le_of_lt_succ short)
  rw [byDigest_of_absent absent, Traversal.map_eq_ok] at found
  obtain ⟨input, _, rfl⟩ := found
  exact isDigest_ofText input

/-- A call that is given no id does not fail for it. -/
theorem eq_breakdown_of_byDigest_error (short : call.arguments.length < 4) {halt : Halt}
    (refused : byDigest file call = .error halt) : halt = .breakdown := by
  have absent : call.arguments[3]? = none := List.getElem?_eq_none (Nat.le_of_lt_succ short)
  rw [byDigest_of_absent absent, Traversal.map_eq_error] at refused
  exact (digestInput_eq_error.mp refused).1

/-- An argument that an id can be taken from: a string literal or a template without substitutions,
which is not spread. -/
structure GivesId (argument : Argument) : Prop where
  plain : argument.isSpread = false
  literal : StringLiteral argument.value

/-- A call that is given an id gets it if the argument gives one, and no other. -/
theorem byDigest_eq_ok_of_fourth {fourth : Argument} {id : String}
    (given : call.arguments[3]? = some fourth) :
    byDigest file call = .ok id ↔
      GivesId fourth ∧ ∃ text, file.text fourth.value.span = .ok text ∧ id = strip text := by
  by_cases gives : GivesId fourth
  · obtain ⟨value, spread⟩ := fourth
    obtain ⟨rfl, literal⟩ := gives
    rw [byDigest_of_noted ⟨given, literal⟩, Traversal.map_eq_ok]
    simp only [eq_comm (a := id)]
    exact ⟨fun found => ⟨⟨rfl, literal⟩, found⟩, And.right⟩
  · have unfit : fourth.isSpread = true ∨ ¬ StringLiteral fourth.value := by
      by_contra fit
      rw [not_or, not_not, Bool.not_eq_true] at fit
      exact gives ⟨fit.1, fit.2⟩
    rw [byDigest_of_unfit given unfit]
    refine ⟨fun done => ?_, fun found => absurd found.1 gives⟩
    obtain ⟨_, _, done⟩ := Traversal.bind_eq_ok.mp done
    obtain ⟨_, _, done⟩ := Traversal.bind_eq_ok.mp done
    cases done

/-- What is promised of two calls that are given no id. -/
structure Digested (file file' : SourceFile) (call call' : CallSite) : Prop where
  /-- The id is the start of a digest of the hashed bytes. -/
  fromHash : byDigest file call = (fun bytes => String.ofList
    ((Digest.Sha256.hex (Digest.Sha256.digest bytes)).take 16)) <$> hashed file call
  /-- There is an id as soon as the arguments can be cut out of the file. -/
  succeeds : (∃ id, byDigest file call = .ok id) ↔
    ∀ position < 3, ∀ argument, call.arguments[position]? = some argument →
      argument.value.span.Whole file.code
  isDigest : ∀ id, byDigest file call = .ok id → IsDigest id
  /-- Otherwise the extraction breaks down; it does not fail. -/
  breaksDown : ∀ halt, byDigest file call = .error halt → halt = .breakdown
  /-- In a file that is well cut there is always an id. -/
  always : file.WellCut → call ∈ file.calls → ∃ id, byDigest file call = .ok id ∧ IsDigest id
  /-- The same parts are hashed alike, whatever else differs. -/
  together : parts file call = parts file' call' → hashed file call = hashed file' call'
  /-- Other parts are hashed otherwise, even where they have the same characters in the same order. -/
  apart : ∀ own own', parts file call = .ok own → parts file' call' = .ok own' → own.Unseparated →
    own'.Unseparated → hashed file call = hashed file' call' → own = own'
  sameId : parts file call = parts file' call' → byDigest file call = byDigest file' call'

/-- What is promised of two calls that are given their ids. -/
structure Explicit (file file' : SourceFile) (call call' : CallSite) (fourth fourth' : Argument) :
    Prop where
  byFourth : ∀ id, byDigest file call = .ok id ↔
    GivesId fourth ∧ ∃ text, file.text fourth.value.span = .ok text ∧ id = strip text
  /-- The argument with its text decides whether there is an id, and which one. -/
  sameId : file.text fourth.value.span = file'.text fourth'.value.span →
    (GivesId fourth ↔ GivesId fourth') →
    ∀ id, byDigest file call = .ok id ↔ byDigest file' call' = .ok id

/-- **What an id depends on.** Take any two calls, in any files, at any offsets and of any callees. If
they have less than four arguments, each gets an id of sixteen hexadecimal digits, from the digest of its
text, its meaning and its description, as soon as these can be cut out of its file. Where they agree, the
same bytes are hashed, and where one of them differs and none holds the separator, other bytes are. If they
have a fourth argument, it alone decides whether there is an id, and which one. -/
theorem id_depends_on_parts (file file' : SourceFile) (call call' : CallSite) :
    (call.arguments.length < 4 → call'.arguments.length < 4 → Digested file file' call call') ∧
    (∀ fourth fourth', call.arguments[3]? = some fourth → call'.arguments[3]? = some fourth' →
      Explicit file file' call call' fourth fourth') := by
  constructor
  · intro short short'
    have together (same : parts file call = parts file' call') : hashed file call = hashed file' call' := by
      rw [hashed_eq_map_parts, hashed_eq_map_parts, same]
    refine ⟨byDigest_of_hashed short, exists_byDigest_eq_ok_iff short,
      fun _ => isDigest_of_byDigest short, fun _ => eq_breakdown_of_byDigest_error short,
      fun wellCut member => ?_, together, fun _ _ => parts_of_hashed, fun same => ?_⟩
    · obtain ⟨id, found⟩ := (exists_byDigest_eq_ok_iff short).mpr fun _ _ _ given =>
        wellCut.whole_argument member (List.mem_of_getElem? given)
      exact ⟨id, found, isDigest_of_byDigest short found⟩
    · rw [byDigest_of_hashed short, byDigest_of_hashed short', together same]
  · intro fourth fourth' given given'
    constructor
    · intro id
      exact byDigest_eq_ok_of_fourth given
    · intro text gives id
      rw [byDigest_eq_ok_of_fourth given, byDigest_eq_ok_of_fourth given', text, gives]

/-- Two calls with the same characters in their parts, which end at other places. -/
def shiftedParts : SourceFile := sampleFile "i18n(ab, c); o?.t(a, bc)"

/-- Two calls that have an id in common and nothing else. -/
def commonId : SourceFile := sampleFile "i18n(a, b, c, 'k'); o?.t(...x, `y`, f(z), 'k', 1)"

/-- Parts that only divide one text differently are told apart by the digest, and two calls that
give the same id share it. -/
theorem sampleCalls_id_depends_on_parts :
    (∃ call call', shiftedParts.calls = [call, call'] ∧
      parts shiftedParts call = .ok ⟨"ab", "", "c"⟩ ∧ parts shiftedParts call' = .ok ⟨"a", "", "bc"⟩ ∧
      hashed shiftedParts call ≠ hashed shiftedParts call' ∧
      ∃ id, byDigest shiftedParts call = .ok id ∧ IsDigest id) ∧
    (∃ call call' inner, commonId.calls = [call, call', inner] ∧
      byDigest commonId call = .ok "k" ∧ byDigest commonId call' = .ok "k") := by
  constructor
  · have facts : shiftedParts.calls.map (fun call => (call.arguments.length, parts shiftedParts call)) =
        [(2, .ok ⟨"ab", "", "c"⟩), (2, .ok ⟨"a", "", "bc"⟩)] := by
      decide +kernel
    obtain ⟨call, rest, split, first, others⟩ := List.map_eq_cons_iff.mp facts
    obtain ⟨call', rest', rfl, second, none⟩ := List.map_eq_cons_iff.mp others
    cases List.map_eq_nil_iff.mp none
    obtain ⟨count, own⟩ := Prod.mk.inj first
    obtain ⟨count', own'⟩ := Prod.mk.inj second
    have digested := (id_depends_on_parts shiftedParts shiftedParts call call').1 (by omega) (by omega)
    obtain ⟨id, found⟩ : ∃ id, byDigest shiftedParts call = .ok id := by
      rw [digested.fromHash, hashed_eq_map_parts, own]
      exact ⟨_, rfl⟩
    refine ⟨call, call', split, own, own', fun same => ?_, id, found, digested.isDigest id found⟩
    exact absurd (digested.apart _ _ own own' (by decide) (by decide) same) (by decide)
  · have facts : commonId.calls.map (fun call => call.arguments[3]?.map fun argument =>
        (argument.isSpread, isStringLiteral argument.value, commonId.text argument.value.span)) =
        [some (false, true, .ok "'k'"), some (false, true, .ok "'k'"), none] := by
      decide +kernel
    obtain ⟨call, rest, split, first, others⟩ := List.map_eq_cons_iff.mp facts
    obtain ⟨call', rest', rfl, second, last⟩ := List.map_eq_cons_iff.mp others
    obtain ⟨inner, rest', rfl, _, none⟩ := List.map_eq_cons_iff.mp last
    cases List.map_eq_nil_iff.mp none
    obtain ⟨fourth, given, shape⟩ := Option.map_eq_some_iff.mp first
    obtain ⟨fourth', given', shape'⟩ := Option.map_eq_some_iff.mp second
    simp only [Prod.mk.injEq] at shape shape'
    have gives : GivesId fourth := ⟨shape.1, isStringLiteral_iff.mp shape.2.1⟩
    have gives' : GivesId fourth' := ⟨shape'.1, isStringLiteral_iff.mp shape'.2.1⟩
    have explicit := (id_depends_on_parts commonId commonId call call').2 fourth fourth' given given'
    have key : byDigest commonId call = .ok "k" :=
      (explicit.byFourth "k").mpr ⟨gives, _, shape.2.2, by decide⟩
    have texts : commonId.text fourth.value.span = commonId.text fourth'.value.span :=
      shape.2.2.trans shape'.2.2.symm
    exact ⟨call, call', inner, split, key,
      (explicit.sameId texts (iff_of_true gives gives') "k").mp key⟩

end Identifier

end Harvest

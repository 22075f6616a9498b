import Harvest.Proofs.Message.Visit

/-!
# Text inserted above

Text that is put in front of a file moves every span by the bytes of the text in UTF-8, and every offset
by its code units in UTF-16. Nothing else of what is found in the file changes: the spans cut out the
same characters, so calls are recognized as before, messages keep their ids, and a call fails as it did.
-/

namespace Harvest

open Text (Span byteSize unitCount)
open TypeScript (Tree ImportBinding)

/-! ## Trees and calls further on -/

namespace TypeScript.Tree

mutual

/-- A tree with all of its spans a number of bytes further on. -/
def shift (bytes : Nat) : Tree → Tree
  | .call span chained callee arguments types =>
    .call (span.shift bytes) chained (shift bytes callee) (shiftAll bytes arguments)
      (shiftAll bytes types)
  | .node form span parts => .node form (span.shift bytes) (shiftAll bytes parts)

/-- Several trees with all of their spans a number of bytes further on. -/
def shiftAll (bytes : Nat) : List Tree → List Tree
  | [] => []
  | tree :: more => shift bytes tree :: shiftAll bytes more

end

private theorem shiftAll_eq_map (bytes : Nat) (trees : List Tree) : shiftAll bytes trees = trees.map (shift bytes) := by
  induction trees with
  | nil => rfl
  | cons tree trees ih => rw [shiftAll, ih, List.map_cons]

variable (bytes : Nat) (tree : Tree)

/-- A moved tree covers the moved span. -/
@[simp] theorem span_shift : (tree.shift bytes).span = tree.span.shift bytes := by
  cases tree <;> rfl

/-- Moving a tree keeps its form. -/
@[simp] theorem form?_shift : (tree.shift bytes).form? = tree.form? := by
  cases tree <;> rfl

/-- Moving an item keeps the names it imports. -/
@[simp] theorem itemBindings_shift :
    SourceFile.itemBindings (tree.shift bytes) = SourceFile.itemBindings tree := by
  cases tree with
  | call => rfl
  | node form span parts => cases form <;> rfl

/-- Moving a tree does not make it a string literal, nor stop it from being one. -/
@[simp] theorem isStringLiteral_shift : isStringLiteral (tree.shift bytes) = isStringLiteral tree := by
  cases tree with
  | call => rfl
  | node form span parts =>
    cases form with
    | template => cases parts <;> rfl
    | _ => rfl

end TypeScript.Tree

def Argument.shift (bytes : Nat) (argument : Argument) : Argument :=
  { argument with value := argument.value.shift bytes }

private theorem Argument.ofTree_shift (bytes : Nat) (tree : Tree) :
    ofTree (tree.shift bytes) = (ofTree tree).shift bytes := by
  cases tree with
  | call => rfl
  | node form span parts =>
    cases form with
    | spread =>
      cases parts with
      | nil => rfl
      | cons first others => cases others <;> rfl
    | _ => rfl

namespace CallSite

/-- A call with all of its spans a number of bytes further on. -/
def shift (bytes : Nat) (call : CallSite) : CallSite where
  span := call.span.shift bytes
  isOptional := call.isOptional
  callee := call.callee.map (Tree.shift bytes)
  arguments := call.arguments.map (Argument.shift bytes)

private theorem calleeOf_shift (bytes : Nat) (callee : Tree) :
    calleeOf (callee.shift bytes) = (calleeOf callee).map (Tree.shift bytes) := by
  unfold calleeOf
  rw [Tree.form?_shift]
  split <;> rfl

private theorem ofCall_shift (bytes : Nat) (span : Span) (chained : Bool) (callee : Tree)
    (arguments : List Tree) :
    ofCall (span.shift bytes) chained (callee.shift bytes) (arguments.map (Tree.shift bytes)) =
      (ofCall span chained callee arguments).shift bytes := by
  simp only [ofCall, shift, calleeOf_shift, List.map_map, CallSite.mk.injEq, true_and]
  apply List.map_congr_left
  intro tree _
  exact Argument.ofTree_shift bytes tree

variable (bytes : Nat) (call : CallSite) (position : Nat)

/-- A moved call covers the moved span. -/
@[simp] theorem span_shift : (call.shift bytes).span = call.span.shift bytes := rfl

/-- The callee moves with its call. -/
@[simp] theorem callee_shift : (call.shift bytes).callee = call.callee.map (Tree.shift bytes) := rfl

/-- The span of an argument moves with its call. -/
@[simp] theorem argumentSpan?_shift :
    (call.shift bytes).argumentSpan? position = (call.argumentSpan? position).map (Span.shift bytes) := by
  simp only [argumentSpan?, shift, List.getElem?_map, Option.map_map]
  congr 1
  funext argument
  exact argument.value.span_shift bytes

/-- A plain argument moves with its call. -/
@[simp] theorem plainArgument?_shift :
    (call.shift bytes).plainArgument? position =
      (call.plainArgument? position).map (Tree.shift bytes) := by
  simp only [plainArgument?, shift, List.getElem?_map]
  cases call.arguments[position]? with
  | none => rfl
  | some argument =>
    obtain ⟨value, spread⟩ := argument
    cases spread <;> rfl

/-- Moving a call keeps what is wrong with its text. -/
@[simp] theorem textFault?_shift :
    Classifier.textFault? (call.shift bytes) = Classifier.textFault? call := by
  simp only [Classifier.textFault?, shift, List.head?_map]
  cases call.arguments.head? <;> rfl

end CallSite

/-- The calls of several trees further on, if the calls of each tree are. -/
theorem callsOfAll_shift (bytes : Nat) (trees : List Tree)
    (each : ∀ tree ∈ trees, callsOf (tree.shift bytes) = (callsOf tree).map (CallSite.shift bytes)) :
    callsOfAll (trees.map (Tree.shift bytes)) = (callsOfAll trees).map (CallSite.shift bytes) := by
  induction trees with
  | nil => rfl
  | cons tree trees ih =>
    obtain ⟨first, others⟩ := List.forall_mem_cons.mp each
    rw [List.map_cons, callsOfAll, callsOfAll, first, ih others, List.map_append]

/-- The calls of a tree further on are its calls further on, in the same order. -/
theorem callsOf_shift (bytes : Nat) (tree : Tree) :
    callsOf (tree.shift bytes) = (callsOf tree).map (CallSite.shift bytes) := by
  induction tree using Tree.induction with
  | step tree ih =>
    cases tree with
    | node form span parts =>
      rw [Tree.shift, callsOf, callsOf, TypeScript.Tree.shiftAll_eq_map, callsOfAll_shift bytes parts ih]
    | call span chained callee arguments types =>
      have inCallee := ih callee List.mem_cons_self
      have inArguments := callsOfAll_shift bytes arguments fun part member =>
        ih part (List.mem_cons_of_mem _ (List.mem_append_left _ member))
      have inTypes := callsOfAll_shift bytes types fun part member =>
        ih part (List.mem_cons_of_mem _ (List.mem_append_right _ member))
      rw [Tree.shift, callsOf, callsOf, TypeScript.Tree.shiftAll_eq_map, TypeScript.Tree.shiftAll_eq_map,
        CallSite.ofCall_shift, inCallee, inArguments, inTypes]
      simp only [List.map_cons, List.map_append]

/-! ## Results further on -/

/-- A message of a call that stands a number of code units further on. -/
def Message.later (units : Nat) (message : Message) : Message :=
  { message with offset := units + message.offset }

/-- A failure of a call that stands a number of code units further on. -/
def ExtractError.later (units : Nat) : ExtractError → ExtractError
  | .classification file offset message => .classification file (units + offset) message
  | .derivation file offset message => .derivation file (units + offset) message
  | other => other

/-- What calls halt with that stand a number of code units further on. -/
def Halt.later (units : Nat) : Halt → Halt
  | .failure error => .failure (error.later units)
  | .breakdown => .breakdown

/-- The result for calls that stand a number of code units further on: what it gives is moved, or else
its failure is. -/
def furtherOn {α : Type} (units : Nat) (move : α → α) : Except Halt α → Except Halt α
  | .ok given => .ok (move given)
  | .error halt => .error (halt.later units)

private theorem Halt.inFile_later (halt : Halt) (units : Nat) (name : String) :
    (halt.later units).inFile name = (halt.inFile name).later units := by
  cases halt with
  | failure error => cases error <;> rfl
  | breakdown => rfl

private theorem mapError_furtherOn {α : Type} (units : Nat) (move : α → α) (name : String)
    (result : Except Halt α) :
    (furtherOn units move result).mapError (·.inFile name) =
      furtherOn units move (result.mapError (·.inFile name)) := by
  cases result with
  | ok given => rfl
  | error halt => exact congrArg Except.error (halt.inFile_later units name)

/-- Steps that give further on what other steps give do so one after the other. -/
theorem furtherOn_bind {α β : Type} {units : Nat} {step : α → α} {move : β → β} {first : Except Halt α}
    {next further : α → Except Halt β} (each : ∀ given, further (step given) = furtherOn units move (next given)) :
    (furtherOn units step first >>= further) = furtherOn units move (first >>= next) := by
  cases first with
  | ok given => exact each given
  | error halt => rfl

/-- What is made of an unmoved result is itself unmoved. -/
theorem map_furtherOn_id {α β : Type} (units : Nat) (f : α → β) (result : Except Halt α) :
    f <$> furtherOn units id result = furtherOn units id (f <$> result) := by
  cases result <;> rfl

/-! ## A file behind other text -/

/-- The file with text in front of its own, and with the spans of its trees moved by the bytes of that
text. -/
def SourceFile.prepend (front : List Char) (file : SourceFile) : SourceFile :=
  { file with
    code := front ++ file.code
    parsed := ⟨file.parsed.items.map (Tree.shift (byteSize front))⟩ }

namespace SourceFile

variable (front : List Char) (file : SourceFile)

/-- A span further on cuts out what it cut out, or is as torn as it was. -/
theorem text_prepend (span : Span) :
    (file.prepend front).text (span.shift (byteSize front)) =
      furtherOn (unitCount front) id (file.text span) := by
  simp only [text, prepend, Text.slice?_append_shift]
  cases Text.slice? file.code span <;> rfl

private theorem offset_prepend (span : Span) :
    (file.prepend front).offset (span.shift (byteSize front)) =
      furtherOn (unitCount front) (unitCount front + ·) (file.offset span) := by
  simp only [offset, prepend, Span.shift, Text.divide?_append_add, Option.map_map]
  cases Text.divide? file.code span.start with
  | none => rfl
  | some parts => exact congrArg Except.ok (Text.unitCount_append front parts.1)

/-- Text in front of a file keeps what its names are imported as. -/
@[simp] theorem importedName?_prepend (name : String) :
    (file.prepend front).importedName? name = file.importedName? name := by
  have same : (file.prepend front).imports = file.imports := by
    simp only [imports, prepend, List.flatMap_map, Tree.itemBindings_shift]
  rw [importedName?, same, importedName?]

private theorem calls_prepend :
    (file.prepend front).calls = file.calls.map (CallSite.shift (byteSize front)) :=
  callsOfAll_shift _ _ fun tree _ => callsOf_shift _ tree

end SourceFile

/-! ## What is found in it -/

variable (functions : List String) (front : List Char) (file : SourceFile) (name : String)
  (call : CallSite)

private theorem Classifier.matchesCallee_prepend (callee : Tree) :
    matchesCallee functions (file.prepend front) (callee.shift (byteSize front)) =
      matchesCallee functions file callee := by
  cases callee with
  | call => rfl
  | node form span parts =>
    cases form with
    | identifier name =>
      show (functions.contains name ||
          ((file.prepend front).importedName? name).any functions.contains) =
        (functions.contains name || (file.importedName? name).any functions.contains)
      rw [SourceFile.importedName?_prepend]
    | member property chained => cases property <;> rfl
    | _ => rfl

private theorem Classifier.byName_prepend :
    byName functions (file.prepend front) (call.shift (byteSize front)) =
      furtherOn (unitCount front) id (byName functions file call) := by
  unfold byName
  rw [CallSite.callee_shift]
  cases call.callee with
  | none => rfl
  | some callee =>
    simp only [Option.map_some, matchesCallee_prepend, CallSite.textFault?_shift,
      CallSite.span_shift, SourceFile.offset_prepend]
    cases matchesCallee functions file callee with
    | false => rfl
    | true =>
      cases textFault? call with
      | none => rfl
      | some fault => exact furtherOn_bind fun offset => rfl

private theorem Identifier.part_prepend (position : Nat) :
    part (file.prepend front) (call.shift (byteSize front)) position =
      furtherOn (unitCount front) id (part file call position) := by
  unfold part
  rw [CallSite.argumentSpan?_shift]
  cases call.argumentSpan? position with
  | none => rfl
  | some span => exact file.text_prepend front span

private theorem Identifier.digestInput_prepend :
    digestInput (file.prepend front) (call.shift (byteSize front)) =
      furtherOn (unitCount front) id (digestInput file call) := by
  simp only [digestInput, part_prepend]
  exact furtherOn_bind fun text => furtherOn_bind fun meaning => furtherOn_bind fun description => rfl

/-- Texts and whether they are literals are all that an id depends on. -/
theorem Identifier.byDigest_prepend :
    byDigest (file.prepend front) (call.shift (byteSize front)) =
      furtherOn (unitCount front) id (byDigest file call) := by
  have literal : ((call.plainArgument? CallSite.idPosition).map (Tree.shift (byteSize front))).any
      isStringLiteral = (call.plainArgument? CallSite.idPosition).any isStringLiteral := by
    cases call.plainArgument? CallSite.idPosition <;> simp
  unfold byDigest
  rw [CallSite.argumentSpan?_shift, CallSite.plainArgument?_shift, literal]
  cases call.argumentSpan? CallSite.idPosition with
  | none =>
    simp only [Option.map_none, digestInput_prepend]
    exact map_furtherOn_id _ _ _
  | some given =>
    simp only [Option.map_some, SourceFile.text_prepend, CallSite.span_shift, SourceFile.offset_prepend]
    cases (call.plainArgument? CallSite.idPosition).any isStringLiteral with
    | true => exact map_furtherOn_id _ _ _
    | false => exact furtherOn_bind fun offset => furtherOn_bind fun found => rfl

private theorem Extractor.note?_prepend (position : Nat) :
    note? (file.prepend front) (call.shift (byteSize front)) position =
      furtherOn (unitCount front) id (note? file call position) := by
  unfold note?
  rw [CallSite.plainArgument?_shift]
  cases call.plainArgument? position with
  | none => rfl
  | some value =>
    simp only [Option.map_some, Tree.isStringLiteral_shift, Tree.span_shift, SourceFile.text_prepend]
    cases isStringLiteral value with
    | false => rfl
    | true => exact map_furtherOn_id _ _ _

/-- **Step lemma.** A call behind other text gives what it gave, further on. -/
theorem Extractor.message?_prepend :
    (named functions).message? (file.prepend front) name (call.shift (byteSize front)) =
      furtherOn (unitCount front) (Option.map (Message.later (unitCount front)))
        ((named functions).message? file name call) := by
  simp only [message?, named, Classifier.byName_prepend, Identifier.byDigest_prepend,
    CallSite.argumentSpan?_shift, CallSite.span_shift, SourceFile.offset_prepend, note?_prepend]
  refine furtherOn_bind fun taken => ?_
  cases taken with
  | false => rfl
  | true =>
    cases call.argumentSpan? CallSite.textPosition with
    | none => exact furtherOn_bind fun offset => rfl
    | some given =>
      simp only [Option.map_some, SourceFile.text_prepend]
      refine furtherOn_bind fun id => furtherOn_bind fun source => furtherOn_bind fun offset => ?_
      exact furtherOn_bind fun meaning => furtherOn_bind fun description => rfl

private theorem Extractor.outcome_prepend :
    (named functions).outcome (file.prepend front) name (call.shift (byteSize front)) =
      furtherOn (unitCount front) (Option.map (Message.later (unitCount front)))
        ((named functions).outcome file name call) := by
  rw [outcome, message?_prepend, mapError_furtherOn, outcome]

/-- Tasks that give further on what other tasks give do so as a traversal. -/
theorem Traversal.mapM_furtherOn {α β γ : Type} {f : α → Except Halt γ}
    {g : β → Except Halt γ} {place : α → β} {units : Nat} {move : γ → γ}
    (each : ∀ x, g (place x) = furtherOn units move (f x)) (xs : List α) :
    (xs.map place).mapM g = furtherOn units (List.map move) (xs.mapM f) := by
  induction xs with
  | nil => rfl
  | cons x xs ih =>
    rw [List.map_cons, List.mapM_cons, List.mapM_cons, each, ih]
    cases f x with
    | error halt => rfl
    | ok first => cases xs.mapM f <;> rfl

/-- **Text inserted above leaves messages as they are.** Put any text in front of a file and move the
spans of its trees by the bytes of that text. Whatever functions give messages, the extraction then
succeeds, fails or breaks down as before. The messages have the same ids, texts, files, meanings and
descriptions in the same order, and the failure is the same; only the offsets grow, all by the code units of
the text. -/
theorem extract_prepend (functions : List String) (front : List Char) (file : SourceFile)
    (name : String) :
    (Extractor.named functions).extract (file.prepend front) name =
      furtherOn (unitCount front) (List.map (Message.later (unitCount front)))
        ((Extractor.named functions).extract file name) := by
  rw [Extractor.extract_eq_mapM, Extractor.extract_eq_mapM, SourceFile.calls_prepend,
    Traversal.mapM_furtherOn (Extractor.outcome_prepend functions front file name)]
  cases file.calls.mapM ((Extractor.named functions).outcome file name) with
  | error halt => rfl
  | ok outcomes =>
    have moved : (outcomes.map (Option.map (Message.later (unitCount front)))).flatMap Option.toList =
        (outcomes.flatMap Option.toList).map (Message.later (unitCount front)) := by
      rw [List.flatMap_map, List.map_flatMap]
      simp only [Option.toList_map]
    exact congrArg Except.ok moved

/-- The parser puts the spans of a file behind a comment where they are expected. -/
example : (sampleFile "/*é😀*/ i18n('a', f(b))").calls.map (fun call => (call.span, call.arguments.length)) =
    ((sampleFile "i18n('a', f(b))").prepend "/*é😀*/ ".toList).calls.map
      (fun call => (call.span, call.arguments.length)) := by
  decide +kernel

end Harvest

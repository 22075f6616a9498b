import Harvest.Proofs.Message.CallOrder
import Harvest.Proofs.Text.Slice

/-!
# What a file shows of a span

A file shows the text of a span exactly if the span is whole, and its offset exactly if it starts between
two characters; otherwise the extraction breaks down. In a file that is well cut every tree has a whole
span, so that nothing breaks down on its calls.
-/

namespace Harvest

open Text (Span Cuts IsBoundary byteSize unitCount)
open TypeScript (Tree)

/-! ## What has to be there -/

namespace Halt

variable {α : Type} {wanted : Option α} {given : α} {halt : Halt}

/-- What is required is given if it is there. -/
theorem require_eq_ok : require wanted = .ok given ↔ wanted = some given := by
  cases wanted <;> simp [require]

/-- What is required and is not there breaks the extraction down. -/
theorem require_eq_error : require wanted = .error halt ↔ halt = .breakdown ∧ wanted = none := by
  cases wanted <;> simp [require, eq_comm]

/-- What only breaks down, and does not succeed, breaks down. -/
theorem eq_breakdown_of_ne_ok {result : Except Halt α}
    (breaks : ∀ halt, result = .error halt → halt = .breakdown) (fails : ∀ value, result ≠ .ok value) :
    result = .error .breakdown := by
  cases result with
  | ok value => exact absurd rfl (fails value)
  | error halt => rw [breaks halt rfl]

end Halt

namespace SourceFile

variable {file : SourceFile} {span : Span} {text : String} {offset : Nat} {halt : Halt}

/-- The text of a span is made of the characters that the span cuts out of the code. -/
theorem text_eq_ok : file.text span = .ok text ↔ ∃ front, Cuts file.code span front text.toList := by
  rw [SourceFile.text, Halt.require_eq_ok, Option.map_eq_some_iff]
  simp only [Text.slice?_eq_some]
  constructor
  · rintro ⟨cut, ⟨front, cuts⟩, rfl⟩
    exact ⟨front, by rwa [String.toList_ofList]⟩
  · rintro ⟨front, cuts⟩
    exact ⟨text.toList, ⟨front, cuts⟩, String.ofList_toList⟩

/-- Only a span that is not whole has no text, and it breaks the extraction down. -/
theorem text_eq_error : file.text span = .error halt ↔ halt = .breakdown ∧ ¬ span.Whole file.code := by
  rw [SourceFile.text, Halt.require_eq_error, Option.map_eq_none_iff, Span.whole_iff]
  simp

/-- The offset of a span is the number of code units of the characters in front of it. -/
theorem offset_eq_ok : file.offset span = .ok offset ↔
    ∃ front, front <+: file.code ∧ span.start = byteSize front ∧ offset = unitCount front := by
  rw [SourceFile.offset, Halt.require_eq_ok, Option.map_eq_some_iff]
  constructor
  · rintro ⟨⟨front, back⟩, divided, rfl⟩
    obtain ⟨stands, size⟩ := Text.divide?_eq_some.mp divided
    exact ⟨front, ⟨back, stands.symm⟩, size.symm, rfl⟩
  · rintro ⟨front, ⟨back, stands⟩, start, rfl⟩
    exact ⟨(front, back), Text.divide?_eq_some.mpr ⟨stands.symm, start.symm⟩, rfl⟩

/-- Only a span that starts inside of a character or behind the text has no offset, and it breaks the
extraction down. -/
theorem offset_eq_error : file.offset span = .error halt ↔
    halt = .breakdown ∧ ¬ IsBoundary file.code span.start := by
  rw [SourceFile.offset, Halt.require_eq_error, Option.map_eq_none_iff, Text.isBoundary_iff]
  simp

/-- A whole span has a text. -/
theorem exists_text_eq_ok (whole : span.Whole file.code) : ∃ text, file.text span = .ok text := by
  obtain ⟨front, cut, cuts⟩ := whole.exists_cuts
  exact ⟨String.ofList cut, text_eq_ok.mpr ⟨front, by rwa [String.toList_ofList]⟩⟩

/-- A span that starts between two characters has an offset. -/
theorem exists_offset_eq_ok (start : IsBoundary file.code span.start) :
    ∃ offset, file.offset span = .ok offset := by
  obtain ⟨front, inFront, size⟩ := start
  exact ⟨_, offset_eq_ok.mpr ⟨front, inFront, size.symm, rfl⟩⟩

/-- A span has a text, or the extraction breaks down on it. -/
theorem text_cases (file : SourceFile) (span : Span) :
    (∃ text, file.text span = .ok text) ∨ file.text span = .error .breakdown := by
  cases shown : file.text span with
  | ok text => exact .inl ⟨text, rfl⟩
  | error halt =>
    obtain ⟨rfl, _⟩ := text_eq_error.mp shown
    exact .inr rfl

/-- A span has an offset, or the extraction breaks down on it. -/
theorem offset_cases (file : SourceFile) (span : Span) :
    (∃ offset, file.offset span = .ok offset) ∨ file.offset span = .error .breakdown := by
  cases counted : file.offset span with
  | ok offset => exact .inl ⟨offset, rfl⟩
  | error halt =>
    obtain ⟨rfl, _⟩ := offset_eq_error.mp counted
    exact .inr rfl

/-! ## Files that are well cut -/

/-- Every tree of the file covers whole characters of its code. -/
def WellCut (file : SourceFile) : Prop :=
  ∀ item ∈ file.parsed.items, ∀ address tree, item.at? address = some tree → tree.span.Whole file.code

end SourceFile

namespace TypeScript.Tree

/-- A part of what stands at an address stands one level further down. -/
theorem at?_concat {tree middle part : Tree} {address : Address} {index : Nat}
    (found : tree.at? address = some middle) (inside : middle.parts[index]? = some part) :
    tree.at? (address ++ [index]) = some part := by
  induction address generalizing tree with
  | nil =>
    cases found
    simp [at?, inside]
  | cons first rest ih =>
    obtain ⟨next, here, below⟩ := Option.bind_eq_some_iff.mp found
    rw [List.cons_append, at?, here]
    exact ih below

end TypeScript.Tree

namespace SourceFile

variable {file : SourceFile} {call : CallSite} {argument : Argument}

private theorem exists_at_of_mem_calls (member : call ∈ file.calls) :
    ∃ item ∈ file.parsed.items, ∃ address chained callee arguments types,
      item.at? address = some (.call call.span chained callee arguments types) ∧
        call.arguments = arguments.map Argument.ofTree := by
  obtain ⟨addresses, listed⟩ := file.exists_listsCalls_calls
  obtain ⟨address, _, found⟩ : ∃ address ∈ addresses, callBelow? file.parsed.items address = some call := by
    have placed : some call ∈ addresses.map (callBelow? file.parsed.items) := by
      rw [listed.found]
      exact List.mem_map_of_mem member
    exact List.mem_map.mp placed
  cases address with
  | nil => cases found
  | cons index rest =>
    obtain ⟨item, there, below⟩ := Option.bind_eq_some_iff.mp found
    obtain ⟨tree, atRest, isCall⟩ := Option.bind_eq_some_iff.mp below
    cases tree with
    | node => cases isCall
    | call span chained callee arguments types =>
      cases isCall
      exact ⟨item, List.mem_of_getElem? there, rest, chained, callee, arguments, types, atRest, rfl⟩

/-- The calls of a file that is well cut have whole spans. -/
theorem WellCut.whole_call (wellCut : file.WellCut) (member : call ∈ file.calls) :
    call.span.Whole file.code := by
  obtain ⟨item, inside, address, _, _, _, _, found, _⟩ := exists_at_of_mem_calls member
  exact wellCut item inside address _ found

/-- So have the arguments of its calls. -/
theorem WellCut.whole_argument (wellCut : file.WellCut) (member : call ∈ file.calls)
    (given : argument ∈ call.arguments) : argument.value.span.Whole file.code := by
  obtain ⟨item, inside, address, _, callee, arguments, types, found, equal⟩ :=
    exists_at_of_mem_calls member
  rw [equal] at given
  obtain ⟨tree, there, rfl⟩ := List.mem_map.mp given
  have part : tree ∈ (Tree.call call.span ‹_› callee arguments types).parts :=
    List.mem_cons_of_mem _ (List.mem_append_left _ there)
  obtain ⟨index, here⟩ := List.mem_iff_getElem?.mp part
  have below := Tree.at?_concat found here
  -- A spread argument stands one level below the tree that spreads it.
  unfold Argument.ofTree
  split
  · exact wellCut item inside _ _ (Tree.at?_concat below (show [_][0]? = some _ from rfl))
  · exact wellCut item inside _ _ below

end SourceFile

end Harvest

import Harvest.Proofs.FileSystem.Change
import Harvest.Proofs.Source.Cut
import Harvest.Proofs.Source.Load
import Harvest.Proofs.TypeScript.Module

/-!
# The text of a source file, verbatim

The loader drops a byte order mark from the front of a file, and the parser drops one from the front of
what it is given. The spans of the trees count the bytes of what the parser kept, and a source file cuts
them out of what the loader kept. The two agree unless a file starts with two marks: then everything is
cut out three bytes too early, and where this is inside of a character nothing can be cut out at all.
-/

namespace Harvest

open Text (Span Cuts slice? divide? byteSize unitCount dropByteOrderMark)
open TypeScript (grammar Rule Tree Module ModuleParser)

/-- The byte order mark. -/
def byteOrderMark : Char := '\uFEFF'

private theorem dropByteOrderMark_cons (rest : List Char) :
    dropByteOrderMark (byteOrderMark :: rest) = rest := rfl

/-- A text that does not start with a mark is kept as it is. -/
theorem dropByteOrderMark_of_head {text : List Char} (unmarked : text.head? ≠ some byteOrderMark) :
    dropByteOrderMark text = text := by
  cases text with
  | nil => rfl
  | cons c rest =>
    rw [dropByteOrderMark, if_neg]
    intro marked
    have same : c.toNat = 0xfeff := eq_of_beq marked
    apply unmarked
    rw [List.head?_cons, ← Char.ofNat_toNat c, same]
    rfl

/-! ## Cutting behind a mark -/

namespace Text

variable {text : List Char}

private theorem byteSize_mark : byteSize [byteOrderMark] = 3 := rfl

private theorem divide?_behind_mark {place : Nat} (behind : 3 ≤ place) :
    divide? (byteOrderMark :: text) place =
      (divide? text (place - 3)).map fun parts => (byteOrderMark :: parts.1, parts.2) := by
  have moved := divide?_append_add [byteOrderMark] text (place - 3)
  rw [byteSize_mark, Nat.add_sub_cancel' behind] at moved
  exact moved

private theorem divide?_inside_mark {place : Nat} (positive : 0 < place) (inside : place < 3) :
    divide? (byteOrderMark :: text) place = none := by
  have size : byteOrderMark.utf8Size = 3 := rfl
  rw [divide?, if_neg (by omega), size, if_pos inside]

private theorem slice?_behind_mark {span : Span} (behind : 3 ≤ span.start) (ordered : span.start ≤ span.stop) :
    slice? (byteOrderMark :: text) span = slice? text ⟨span.start - 3, span.stop - 3⟩ := by
  have moved : Span.shift (byteSize [byteOrderMark]) ⟨span.start - 3, span.stop - 3⟩ = span := by
    rw [byteSize_mark, Span.shift, Nat.add_sub_cancel' behind, Nat.add_sub_cancel' (Nat.le_trans behind ordered)]
  conv => lhs; rw [← moved]
  exact slice?_append_shift [byteOrderMark] text _

private theorem slice?_from_mark (stop : Nat) :
    slice? (byteOrderMark :: text) ⟨0, stop⟩ = (divide? (byteOrderMark :: text) stop).map Prod.fst := by
  rw [slice?, if_pos (Nat.zero_le _), divide?, if_pos rfl]
  rfl

end Text

namespace SourceFile

variable {file : SourceFile} {span : Span} {front cut : List Char}

/-- The characters that the spans of the trees count. -/
def kept (file : SourceFile) : List Char := dropByteOrderMark file.code

/-- What a file shows for a span at which the parser took the characters `cut` behind `front`. -/
structure Shows (file : SourceFile) (span : Span) (front cut : List Char) : Prop where
  /-- Unless a second mark follows the one that was dropped, the file shows what was taken. -/
  verbatim : file.code.head? ≠ some byteOrderMark → Cuts file.code span front cut ∧
    file.text span = .ok (String.ofList cut) ∧ file.offset span = .ok (unitCount front)
  /-- Behind a second mark the file shows what stands three bytes earlier, if these places lie between
  characters. -/
  early : file.code.head? = some byteOrderMark → 3 ≤ span.start →
    file.text span = Halt.require ((slice? file.kept ⟨span.start - 3, span.stop - 3⟩).map String.ofList) ∧
      file.offset span =
        Halt.require ((divide? file.kept (span.start - 3)).map fun parts => 1 + unitCount parts.1)
  /-- A span that starts at the second or third byte has its start inside of the second mark. -/
  inside : file.code.head? = some byteOrderMark → 0 < span.start → span.start < 3 →
    file.text span = .error .breakdown ∧ file.offset span = .error .breakdown
  /-- At the start of the file it shows the second mark itself and what stands behind, up to three bytes
  before the end of the span. -/
  marked : file.code.head? = some byteOrderMark → span.start = 0 → file.offset span = .ok 0 ∧
    (span.stop = 0 → file.text span = .ok "") ∧
    (0 < span.stop → span.stop < 3 → file.text span = .error .breakdown) ∧
    (3 ≤ span.stop → file.text span = Halt.require
      ((divide? file.kept (span.stop - 3)).map fun parts => String.ofList (byteOrderMark :: parts.1)))

private theorem code_of_mark (marked : file.code.head? = some byteOrderMark) :
    file.code = byteOrderMark :: file.kept := by
  obtain ⟨rest, code⟩ := List.head?_eq_some_iff.mp marked
  rw [kept, code, dropByteOrderMark_cons]

private theorem shows_at_start (marked : file.code.head? = some byteOrderMark) (start : span.start = 0) :
    file.offset span = .ok 0 ∧
    (span.stop = 0 → file.text span = .ok "") ∧
    (0 < span.stop → span.stop < 3 → file.text span = .error .breakdown) ∧
    (3 ≤ span.stop → file.text span = Halt.require
      ((divide? file.kept (span.stop - 3)).map fun parts => String.ofList (byteOrderMark :: parts.1))) := by
  obtain ⟨_, stop⟩ := span
  cases start
  simp only [text, offset, code_of_mark marked, Text.slice?_from_mark]
  refine ⟨rfl, ?_, fun positive inside => ?_, fun behind => ?_⟩
  · rintro rfl
    rfl
  · rw [Text.divide?_inside_mark positive inside]
    rfl
  · rw [Text.divide?_behind_mark behind, Option.map_map, Option.map_map]
    rfl

/-- What the parser took in the text that it kept settles what the file shows. -/
theorem shows_of_cuts (cuts : Cuts file.kept span front cut) : file.Shows span front cut where
  verbatim unmarked := by
    rw [kept, dropByteOrderMark_of_head unmarked] at cuts
    refine ⟨cuts, text_eq_ok.mpr ⟨front, by rwa [String.toList_ofList]⟩, ?_⟩
    exact offset_eq_ok.mpr ⟨front, (List.prefix_append front cut).trans cuts.stands, cuts.start, rfl⟩
  early marked behind := by
    simp only [text, offset, code_of_mark marked, Text.slice?_behind_mark behind cuts.whole.ordered,
      Text.divide?_behind_mark behind, Option.map_map, true_and]
    rfl
  inside marked positive within := by
    have divided := @Text.divide?_inside_mark file.kept _ positive within
    simp only [text, offset, slice?, code_of_mark marked, divided]
    exact ⟨by split <;> rfl, rfl⟩
  marked := shows_at_start

end SourceFile

/-! ## Parsers that cut well -/

/-- Every tree covers whole characters of the text without the mark that the parser drops. -/
def TypeScript.ModuleParser.Faithful (parser : ModuleParser) : Prop :=
  ∀ isDeclaration text parsed, parser isDeclaration text = .ok parsed →
    ∀ item ∈ parsed.items, ∀ address tree, item.at? address = some tree →
      tree.span.Whole (dropByteOrderMark text)

private theorem TypeScript.parser_eq_ok {isDeclaration : Bool} {text : List Char} {parsed : Module} :
    parser isDeclaration text = .ok parsed ↔ Module.parse? isDeclaration text = some parsed := by
  unfold parser
  cases Module.parse? isDeclaration text <;> simp

private theorem exists_cuts_of_parse {isDeclaration : Bool} {text : List Char} {parsed : Module} {item tree : Tree}
    {address : Address} (read : Module.parse? isDeclaration text = some parsed) (inside : item ∈ parsed.items)
    (found : item.at? address = some tree) :
    ∃ front cut, Cuts (dropByteOrderMark text) tree.span front cut ∧
      tree.ReadAs (Module.origin text) cut := by
  have taken : tree.TakenFrom (Module.origin text) := (Module.items_taken read item inside).at found
  exact taken.cuts (Module.origin_reaches text)

/-- The grammar's own parser is faithful. -/
theorem TypeScript.faithful_parser : parser.Faithful := by
  intro isDeclaration text parsed read item inside address tree found
  obtain ⟨front, cut, cuts, _⟩ := exists_cuts_of_parse (parser_eq_ok.mp read) inside found
  exact cuts.whole

namespace Source

variable {parser : ModuleParser} {fs : FileSystem} {index : Nat} {path : Path} {file : SourceFile}

/-- A loaded file is the text at its path without a byte order mark, and what the parser makes of
it. -/
theorem loadFile_parsed (loaded : loadFile parser fs index path = .ok file) :
    (∃ text, fs.readText path = .ok text ∧ file.code = dropByteOrderMark text.toList) ∧
      parser file.isDeclaration file.code = .ok file.parsed := by
  obtain ⟨text, parsed, found, read, rfl⟩ := loadFile_eq_ok_iff.mp loaded
  exact ⟨⟨text, found, rfl⟩, read⟩

/-- A faithful parser cuts every file well that does not start with two marks. -/
theorem wellCut_of_loadFile (faithful : parser.Faithful) (loaded : loadFile parser fs index path = .ok file)
    (unmarked : file.code.head? ≠ some byteOrderMark) : file.WellCut := by
  obtain ⟨_, read⟩ := loadFile_parsed loaded
  intro item inside address tree found
  have whole := faithful _ _ _ read item inside address tree found
  rwa [dropByteOrderMark_of_head unmarked] at whole

/-! ## The texts of a loaded file -/

/-- **Spans and texts.** Of a file that loads at most one byte order mark is dropped before its code is
kept. Every tree in it covers whole characters of the text that the parser kept, and these are the
characters of the tokens that were taken there; whenever a rule reads an expression, its tree covers
exactly the characters from the next token to the last one taken. The file shows these characters and
the number of code units before them, unless its code starts with a second mark: then it shows what
stands three bytes earlier, or breaks down inside of a character. -/
theorem loadFile_verbatim (loaded : loadFile TypeScript.parser fs index path = .ok file) :
    (∃ text, fs.readText path = .ok text ∧ file.code = dropByteOrderMark text.toList) ∧
    (∀ item ∈ file.parsed.items, ∀ address tree, item.at? address = some tree →
      ∃ front cut, Cuts file.kept tree.span front cut ∧ tree.ReadAs (Module.origin file.code) cut ∧
        file.Shows tree.span front cut) ∧
    (∀ depth (rule : Rule), rule.IsExpression → ∀ s tree s',
      (Module.origin file.code).Walk s.toPlace → grammar depth rule s = some (tree, s') →
      ∃ front cut, Cuts file.kept tree.span front cut ∧ s.current.here = cut ++ s'.text ∧
        file.Shows tree.span front cut) := by
  obtain ⟨read, parsed⟩ := loadFile_parsed loaded
  refine ⟨read, ?_, ?_⟩
  · intro item inside address tree found
    obtain ⟨front, cut, cuts, characters⟩ :=
      exists_cuts_of_parse (TypeScript.parser_eq_ok.mp parsed) inside found
    exact ⟨front, cut, cuts, characters, SourceFile.shows_of_cuts cuts⟩
  · intro depth rule expression s tree s' walk answered
    obtain ⟨front, cut, cuts, characters⟩ :=
      TypeScript.grammar_cuts expression ((Module.origin_reaches file.code).trans walk.reaches) answered
    exact ⟨front, cut, cuts, characters, SourceFile.shows_of_cuts cuts⟩

/-- A file system with one source file. -/
def fileWith (text : String) : FileSystem := .ofEntries [(["a.ts"], .file text.toUTF8)]

/-- A file with one mark shows all characters as they were taken. -/
theorem oneMark_verbatim :
    ∃ file, loadFile TypeScript.parser (fileWith "\uFEFF/*é*/ i18n('é');") 0 ⟨"/a.ts"⟩ = .ok file ∧
      file.parsed.items ≠ [] ∧
      ∀ item ∈ file.parsed.items, ∀ address tree, item.at? address = some tree →
        ∃ front cut, Cuts file.code tree.span front cut ∧ file.text tree.span = .ok (String.ofList cut) := by
  have loads : (loadFile TypeScript.parser (fileWith "\uFEFF/*é*/ i18n('é');") 0 ⟨"/a.ts"⟩).toOption.map
      (fun file => (file.code.head?, file.parsed.items.isEmpty)) = some (some '/', false) := by
    decide +kernel
  cases loaded : loadFile TypeScript.parser (fileWith "\uFEFF/*é*/ i18n('é');") 0 ⟨"/a.ts"⟩ with
  | error =>
    rw [loaded] at loads
    cases loads
  | ok file =>
    rw [loaded] at loads
    have facts := Option.some.inj loads
    have head : file.code.head? = some '/' := congrArg Prod.fst facts
    have filled : file.parsed.items.isEmpty = false := congrArg Prod.snd facts
    have unmarked : file.code.head? ≠ some byteOrderMark := by
      rw [head]
      decide
    refine ⟨file, rfl, by simpa using filled, fun item inside address tree found => ?_⟩
    obtain ⟨front, cut, -, -, shows⟩ := (loadFile_verbatim loaded).2.1 item inside address tree found
    obtain ⟨cuts, text, -⟩ := shows.verbatim unmarked
    exact ⟨front, cut, cuts, text⟩

/-- In a file with two marks the parser takes an argument and the file shows other characters for it. -/
theorem secondMark_not_verbatim :
    (loadFile TypeScript.parser (fileWith "\uFEFF\uFEFFi18n('hello');") 0 ⟨"/a.ts"⟩).toOption.map (fun file =>
      file.calls.flatMap fun call => call.arguments.map fun argument =>
        ((slice? file.kept argument.value.span).map String.ofList,
          (file.text argument.value.span).toOption)) =
      some [(some "'hello'", some "8n('hel")] := by
  decide +kernel

end Source

end Harvest

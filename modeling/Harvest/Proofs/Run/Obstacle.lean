import Harvest.Proofs.Message.FirstFault
import Harvest.Proofs.Run.PerFile
import Harvest.Proofs.Run.Schedule
import Harvest.Proofs.Source.Verbatim

/-!
# What a run fails for

Seven things can stand in the way of a run. Each of them is said here without the run, so that several
can stand at once. In whatever order its files are seen to, a run stops for the first of these things, in
a fixed order, and its failure names what is wrong: the first pattern that does not compile, a file that
cannot be read or parsed, a file with a call that fails. A run with nothing in its way succeeds. A call
that breaks down stands in the way like one that fails, but only files that start with two byte order
marks have such calls.
-/

namespace Harvest

open Traversal
open TypeScript (ModuleParser)

/-- What can stand in the way of a run, in the order in which it counts. -/
inductive Obstacle where
  | missingRoot
  | invalidPattern
  | noSourceFiles
  | brokenFile
  | failingCall
  | missingDirectory
  | unwritable
  deriving DecidableEq, Repr

/-- The place of an obstacle in the order in which obstacles count. -/
def Obstacle.rank : Obstacle → Nat
  | .missingRoot => 0
  | .invalidPattern => 1
  | .noSourceFiles => 2
  | .brokenFile => 3
  | .failingCall => 4
  | .missingDirectory => 5
  | .unwritable => 6

private theorem Obstacle.rank_injective {one other : Obstacle} (same : one.rank = other.rank) :
    one = other := by
  cases one <;> cases other <;> first | rfl | cases same

/-- What a failure is for. -/
def ExtractError.obstacle : ExtractError → Obstacle
  | .load (.missingRoot _) => .missingRoot
  | .load (.invalidPattern ..) => .invalidPattern
  | .load (.noSourceFiles _) => .noSourceFiles
  | .load (.unreadable ..) => .brokenFile
  | .load (.malformed ..) => .brokenFile
  | .classification .. => .failingCall
  | .derivation .. => .failingCall
  | .write (.missingDirectory _) => .missingDirectory
  | .write (.unwritable ..) => .unwritable

/-- What a run halts for. Only calls break down. -/
def Halt.obstacle : Halt → Obstacle
  | .failure error => error.obstacle
  | .breakdown => .failingCall

/-! ## The obstacles -/

/-- A file of the project that is to be scanned. -/
def Scannable (fs : FileSystem) (options : Options) (path : Path) : Prop :=
  ∃ location names, fs.locate options.projectDir = .ok location ∧
    Qualifies fs options.projectDir location options.ignore names ∧
    path = options.projectDir.extend names

/-- A file that the system refuses to read, that is no text or that does not parse, with the failure for
it. -/
inductive Broken (parser : ModuleParser) (fs : FileSystem) (path : Path) : LoadError → Prop where
  | denied {location : Location} {cause : AccessError} (located : fs.locate path = .ok location)
    (refused : fs.refusals.reading location = some cause) : Broken parser fs path (.unreadable path cause)
  | notText {content : ByteArray} (read : fs.readBytes path = .ok content)
    (invalid : String.fromUTF8? content = none) : Broken parser fs path (.unreadable path .notText)
  | malformed {content : ByteArray} {text message : String} (read : fs.readBytes path = .ok content)
    (valid : String.fromUTF8? content = some text)
    (refused : parser (Source.isDeclaration path) (Text.dropByteOrderMark text.toList) = .error message) :
    Broken parser fs path (.malformed path message)

/-- A file that is searched for messages: it is to be scanned, is no declaration file, and loads. -/
structure Searched (parser : ModuleParser) (fs : FileSystem) (options : Options) (path : Path)
    (file : SourceFile) : Prop where
  scannable : Scannable fs options path
  searchable : Source.isDeclaration path = false
  loads : ∃ index, Source.loadFile parser fs index path = .ok file

/-- The obstacle is there. -/
def Obstacle.Holds (parser : ModuleParser) (fs : FileSystem) (options : Options) (functions : List String) :
    Obstacle → Prop
  | .missingRoot => fs.isDirectory options.projectDir = false
  | .invalidPattern => ∃ entry ∈ options.ignore, ¬ Compiles entry
  | .noSourceFiles => ¬ ∃ path, Scannable fs options path
  | .brokenFile => ∃ path error, Scannable fs options path ∧ Broken parser fs path error
  | .failingCall => ∃ path file, Searched parser fs options path file ∧
    ∃ call ∈ file.calls, Faulty functions file call ∨ Tears functions file call
  | .missingDirectory => fs.isDirectory options.outputDir = false
  | .unwritable => ∀ text, ∃ cause,
    fs.writeText (options.outputDir.join Catalog.fileName) text = .error cause

/-- What a failure says is so, and what it names is to blame. -/
inductive Reports (parser : ModuleParser) (fs : FileSystem) (options : Options) (functions : List String) :
    Halt → Prop where
  | missingRoot : Reports parser fs options functions (.failure (.load (.missingRoot options.projectDir)))
  /-- The first entry that does not compile is named. -/
  | invalidPattern {before after : List String} {entry : String} {fault : Glob.Fault}
    (split : options.ignore = before ++ entry :: after) (fine : ∀ earlier ∈ before, Compiles earlier)
    (wild : Glob.hasWildcard entry = true) (refused : Glob.compile entry = .error fault) :
    Reports parser fs options functions (.failure (.load (.invalidPattern entry fault.message)))
  | noSourceFiles :
    Reports parser fs options functions (.failure (.load (.noSourceFiles options.projectDir)))
  | brokenFile {path : Path} {error : LoadError} (scannable : Scannable fs options path)
    (broken : Broken parser fs path error) : Reports parser fs options functions (.failure (.load error))
  /-- A call fails, and the file is named as seen from the project's root. -/
  | failingCall {path : Path} {file : SourceFile} {call : CallSite} {error : ExtractError}
    (searched : Searched parser fs options path file) (member : call ∈ file.calls)
    (fault : CallFault functions file (Path.relativeName options.projectDir path) call error) :
    Reports parser fs options functions (.failure error)
  /-- Of a call that breaks down nothing is said. -/
  | tornCall {path : Path} {file : SourceFile} {call : CallSite}
    (searched : Searched parser fs options path file) (member : call ∈ file.calls)
    (torn : Tears functions file call) : Reports parser fs options functions .breakdown
  | missingDirectory :
    Reports parser fs options functions (.failure (.write (.missingDirectory options.outputDir)))
  /-- A directory stands where the catalog is to be, or the system refuses to write it. -/
  | unwritable {location : Location} {cause : AccessError}
    (located : fs.locate options.outputDir = .ok location)
    (blocked : fs.Blocked (location ++ [Catalog.fileName.text]) cause) :
    Reports parser fs options functions
      (.failure (.write (.unwritable (options.outputDir.join Catalog.fileName) cause)))

/-- The text of a file starts with two byte order marks. -/
def DoubleMarked (fs : FileSystem) (path : Path) : Prop :=
  ∃ text, fs.readText path = .ok text ∧
    (Text.dropByteOrderMark text.toList).head? = some byteOrderMark

variable {parser : ModuleParser} {fs : FileSystem} {options : Options} {functions : List String}
  {path : Path} {index : Nat} {file : SourceFile} {set : SourceSet} {halt : Halt} {outcome : Outcome}

private theorem Broken.obstacle {error : LoadError} (broken : Broken parser fs path error) :
    (Halt.failure (.load error)).obstacle = .brokenFile := by
  cases broken <;> rfl

private theorem CallFault.obstacle {name : String} {call : CallSite} {error : ExtractError}
    (fault : CallFault functions file name call error) : (Halt.failure error).obstacle = .failingCall := by
  cases fault <;> rfl

/-! ## The stages -/

/-- A scanned file is there, so it fails to load only if it is broken. -/
theorem loadFile_eq_error_iff {error : LoadError} (scannable : Scannable fs options path) :
    Source.loadFile parser fs index path = .error error ↔ Broken parser fs path error := by
  obtain ⟨root, names, located, qualifies, rfl⟩ := scannable
  obtain ⟨_, there⟩ := qualifies.isFile
  have reached := FileSystem.locate_extend located there
  simp only [Source.loadFile_eq_error, FileSystem.readText_eq_error, FileSystem.readText_eq_ok]
  constructor
  · rintro (⟨cause, denied | ⟨content, read, invalid, rfl⟩, rfl⟩ |
      ⟨text, message, ⟨content, read, valid⟩, refused, rfl⟩)
    · exact .denied reached ((FileSystem.readBytes_eq_error reached there).mp denied)
    · exact .notText read invalid
    · exact .malformed read valid refused
  · intro broken
    cases broken with
    | denied located' refused =>
      cases reached.symm.trans located'
      exact .inl ⟨_, .inl ((FileSystem.readBytes_eq_error reached there).mpr refused), rfl⟩
    | notText read invalid => exact .inl ⟨_, .inr ⟨_, read, invalid, rfl⟩, rfl⟩
    | malformed read valid refused => exact .inr ⟨_, _, ⟨_, read, valid⟩, refused, rfl⟩

/-- A scan that succeeds gives the files that are to be scanned. -/
theorem scannable_iff_mem {paths : List Path}
    (scanned : Source.scan fs options.projectDir options.ignore = .ok paths) :
    Scannable fs options path ↔ path ∈ paths := by
  obtain ⟨location, found, located, _, _, lists, _, rfl⟩ := Source.scan_eq_ok.mp scanned
  rw [List.mem_map]
  constructor
  · rintro ⟨location', names, located', qualifies, rfl⟩
    cases located.symm.trans located'
    exact ⟨names, (lists.complete names).mpr qualifies, rfl⟩
  · rintro ⟨names, member, rfl⟩
    exact ⟨location, names, located, (lists.complete names).mp member, rfl⟩

/-- Each scanned file of a loaded project is one of its files. -/
theorem exists_file_of_scannable
    (loaded : Source.load parser fs options.projectDir options.ignore = .ok set)
    (scannable : Scannable fs options path) :
    ∃ file ∈ set.files, ∃ index, Source.loadFile parser fs index path = .ok file := by
  obtain ⟨_, paths, scanned, read⟩ := Source.load_eq_ok.mp loaded
  have member := (scannable_iff_mem scanned).mp scannable
  obtain ⟨numbered, placed, rfl⟩ : ∃ numbered ∈ paths.zipIdx, numbered.1 = path := by
    rw [← List.zipIdx_map_fst 0 paths] at member
    exact List.mem_map.mp member
  obtain ⟨file, there, opened⟩ := exists_partner read.flip placed
  exact ⟨file, there, numbered.2, opened⟩

/-- The searched files of a loaded project are searched under their paths. -/
theorem searched_of_mem (loaded : Source.load parser fs options.projectDir options.ignore = .ok set)
    (member : file ∈ set.searched) : Searched parser fs options file.path file := by
  obtain ⟨paths, index, scanned, placed, opened⟩ :=
    Source.exists_loadFile loaded (SourceSet.mem_files_of_mem_searched member)
  refine ⟨(scannable_iff_mem scanned).mpr placed, ?_, index, opened⟩
  rw [← (Source.loadFile_eq_ok opened).2.2]
  simpa using (List.mem_filter.mp member).2

/-- In whatever order files are loaded, loading fails for a broken file or not at all. -/
theorem broken_of_loading_error {paths : List Path} {order : List Nat} {error : LoadError}
    (scanned : Source.scan fs options.projectDir options.ignore = .ok paths)
    (failed : (Source.loading parser fs options.projectDir paths).Ends order (.error error)) :
    ∃ path, Scannable fs options path ∧ Broken parser fs path error := by
  obtain ⟨_, ⟨path, index⟩, numbered, _, fails⟩ := Stage.ends_error_iff.mp failed
  have scannable : Scannable fs options path :=
    (scannable_iff_mem scanned).mpr (List.fst_mem_of_mem_zipIdx numbered)
  exact ⟨path, scannable, (loadFile_eq_error_iff scannable).mp fails⟩

/-- In a project that loads no file is broken. -/
theorem not_broken_of_load_ok
    (loaded : Source.load parser fs options.projectDir options.ignore = .ok set) :
    ¬ Obstacle.brokenFile.Holds parser fs options functions := by
  rintro ⟨path, error, scannable, broken⟩
  obtain ⟨file, _, index, opened⟩ := exists_file_of_scannable loaded scannable
  rw [(loadFile_eq_error_iff scannable).mpr broken] at opened
  cases opened

/-- In whatever order files are searched, the extraction halts for a call of a searched file or not at
all. -/
theorem halts_of_extraction_error {order : List Nat}
    (loaded : Source.load parser fs options.projectDir options.ignore = .ok set)
    (halted : (set.extraction (.named functions)).Ends order (.error halt)) :
    ∃ path file, Searched parser fs options path file ∧ ∃ call ∈ file.calls,
      Halts (.named functions) file (Path.relativeName options.projectDir path) call halt := by
  obtain ⟨_, file, there, kept, failed⟩ := Stage.ends_error_iff.mp halted
  obtain ⟨_, call, _, calls, _, halts⟩ := extract_eq_error.mp failed
  rw [SourceSet.nameOf, (Source.load_eq_ok.mp loaded).1] at halts
  exact ⟨file.path, file, searched_of_mem loaded (List.mem_filter.mpr ⟨there, kept⟩), call,
    by simp [calls], halts⟩

/-- A project whose messages are extracted has no call that halts. -/
theorem not_failingCall_of_extract_ok {messages : List Message}
    (loaded : Source.load parser fs options.projectDir options.ignore = .ok set)
    (extracted : set.extract (.named functions) = .ok messages) :
    ¬ Obstacle.failingCall.Holds parser fs options functions := by
  rintro ⟨path, file', ⟨scannable, searchable, index', opened'⟩, call, member, halting⟩
  obtain ⟨halt, halts⟩ := (exists_halts_iff (Path.relativeName options.projectDir path)).mpr halting
  obtain ⟨file, there, index, opened⟩ := exists_file_of_scannable loaded scannable
  obtain ⟨_, samePath, sameKind⟩ := Source.loadFile_eq_ok opened
  have searched : file ∈ set.searched :=
    List.mem_filter.mpr ⟨there, by simp [sameKind, searchable]⟩
  rw [SourceSet.extract, SourceSet.extractFrom_eq_mapM] at extracted
  obtain ⟨lists, traversed, _⟩ := map_eq_ok.mp extracted
  obtain ⟨list, found⟩ := exists_mapM_eq_ok.mp ⟨lists, traversed⟩ file searched
  rw [SourceSet.nameOf, (Source.load_eq_ok.mp loaded).1, samePath] at found
  -- The same file under another number gives the same, so none of its calls halts either.
  have renumbered := Source.loadFile_congr rfl opened index'
  rw [renumbered] at opened'
  cases opened'
  rw [← Extractor.named_extract_renumbered functions file index'] at found
  exact exists_extract_eq_ok.mp ⟨list, found⟩ call member halt halts

/-- All that the writing of a catalog can come to. -/
theorem Catalog.write_cases (fs : FileSystem) (directory : Path) (text : String) :
    (fs.isDirectory directory = false ∧
      write fs directory text = .error (.missingDirectory directory)) ∨
    (∃ location cause, fs.locate directory = .ok location ∧
      fs.entry? location = some .directory ∧ fs.Blocked (location ++ [fileName.text]) cause ∧
      write fs directory text = .error (.unwritable (directory.join fileName) cause)) ∨
    (∃ changed, fs.isDirectory directory = true ∧
      fs.writeText (directory.join fileName) text = .ok changed ∧
      write fs directory text = .ok (directory.join fileName, changed)) := by
  cases present : fs.isDirectory directory with
  | false =>
    refine .inl ⟨rfl, ?_⟩
    simp [write, present]
  | true =>
    right
    obtain ⟨location, located, standing⟩ := FileSystem.isDirectory_iff.mp present
    have named : isName "messages.xlf" = true := by decide
    obtain ⟨cause, blocked⟩ | ⟨changed, written⟩ :=
      FileSystem.exists_writeText_join located standing named text
    · have failed := FileSystem.writeText_join_of_blocked located standing named blocked text
      refine .inl ⟨location, cause, located, standing, blocked, ?_⟩
      simp [write, present, fileName, failed]
    · refine .inr ⟨changed, rfl, written, ?_⟩
      simp [write, present, fileName, written]

/-! ## One stage after the other -/

/-- None of the obstacles up to a place in the order is there. -/
def Clear (parser : ModuleParser) (fs : FileSystem) (options : Options) (functions : List String)
    (rank : Nat) : Prop :=
  ∀ obstacle : Obstacle, obstacle.rank < rank → ¬ obstacle.Holds parser fs options functions

private theorem clear_zero : Clear parser fs options functions 0 :=
  fun _ before => absurd before (Nat.not_lt_zero _)

/-- **Step lemma of the order.** Behind an obstacle that is not there, the way is clear one place
further. -/
theorem Clear.past (obstacle : Obstacle) (clear : Clear parser fs options functions obstacle.rank)
    (absent : ¬ obstacle.Holds parser fs options functions) :
    Clear parser fs options functions (obstacle.rank + 1) := by
  intro other before
  rcases Nat.lt_or_eq_of_le (Nat.le_of_lt_succ before) with earlier | same
  · exact clear other earlier
  · rw [Obstacle.rank_injective same]
    exact absent

/-- A halt for the first obstacle that is there. -/
structure Stops (parser : ModuleParser) (fs : FileSystem) (options : Options) (functions : List String)
    (halt : Halt) : Prop where
  reports : Reports parser fs options functions halt
  holds : halt.obstacle.Holds parser fs options functions
  clear : Clear parser fs options functions halt.obstacle.rank

/-- The scan fails for one of the first three obstacles. -/
theorem scan_stage (parser : ModuleParser) (fs : FileSystem) (options : Options)
    (functions : List String) :
    (∃ error, Source.scan fs options.projectDir options.ignore = .error error ∧
      Stops parser fs options functions (.failure (.load error))) ∨
    (∃ paths, Source.scan fs options.projectDir options.ignore = .ok paths ∧
      Clear parser fs options functions Obstacle.brokenFile.rank) := by
  obtain ⟨missing, failed⟩ | ⟨directory, before, entry, after, fault, split, fine, wild, refused,
    failed⟩ | ⟨compile, location, found, located, standing, lists, scanned⟩ :=
      Source.scan_cases fs options.projectDir options.ignore
  · exact .inl ⟨_, failed, .missingRoot, missing, clear_zero⟩
  · have rooted : ¬ Obstacle.missingRoot.Holds parser fs options functions := by
      simp [Obstacle.Holds, directory]
    have uncompiled : ¬ Compiles entry := by
      intro compiles
      obtain ⟨glob, compiled⟩ := compiles wild
      cases refused.symm.trans compiled
    exact .inl ⟨_, failed, .invalidPattern split fine wild refused,
      ⟨entry, by simp [split], uncompiled⟩, clear_zero.past .missingRoot rooted⟩
  · have directory := FileSystem.isDirectory_iff.mpr ⟨location, located, standing⟩
    have rooted : ¬ Obstacle.missingRoot.Holds parser fs options functions := by
      simp [Obstacle.Holds, directory]
    have compiled : ¬ Obstacle.invalidPattern.Holds parser fs options functions := by
      rintro ⟨entry, member, uncompiled⟩
      exact uncompiled (compile entry member)
    have clear := (clear_zero.past .missingRoot rooted).past .invalidPattern compiled
    rw [Source.report] at scanned
    split at scanned
    · rename_i none
      have nothing : Obstacle.noSourceFiles.Holds parser fs options functions := by
        rintro ⟨_, location', names, located', qualifies, _⟩
        cases located.symm.trans located'
        have member := (lists.complete names).mpr qualifies
        simp [none] at member
      exact .inl ⟨_, scanned, .noSourceFiles, nothing, clear⟩
    · rename_i some
      obtain ⟨names, rest, split⟩ := List.exists_cons_of_ne_nil some
      have something : ¬ Obstacle.noSourceFiles.Holds parser fs options functions := by
        intro nothing
        have qualifies := (lists.complete names).mp (by simp [split])
        exact nothing ⟨_, location, names, located, qualifies, rfl⟩
      exact .inr ⟨_, scanned, clear.past .noSourceFiles something⟩

/-- Loading fails for a broken file. -/
theorem stops_of_loading_error {paths : List Path} {order : List Nat} {error : LoadError}
    (scanned : Source.scan fs options.projectDir options.ignore = .ok paths)
    (clear : Clear parser fs options functions Obstacle.brokenFile.rank)
    (failed : (Source.loading parser fs options.projectDir paths).Ends order (.error error)) :
    Stops parser fs options functions (.failure (.load error)) := by
  obtain ⟨path, scannable, broken⟩ := broken_of_loading_error scanned failed
  refine ⟨.brokenFile scannable broken, ?_, ?_⟩
  · rw [broken.obstacle]
    exact ⟨path, error, scannable, broken⟩
  · rw [broken.obstacle]
    exact clear

/-- The extraction halts for a call that fails or breaks down. -/
theorem stops_of_extraction_error {order : List Nat}
    (loaded : Source.load parser fs options.projectDir options.ignore = .ok set)
    (clear : Clear parser fs options functions Obstacle.failingCall.rank)
    (halted : (set.extraction (.named functions)).Ends order (.error halt)) :
    Stops parser fs options functions halt := by
  obtain ⟨path, file, searched, call, member, halts⟩ := halts_of_extraction_error loaded halted
  have holds : Obstacle.failingCall.Holds parser fs options functions :=
    ⟨path, file, searched, call, member, (exists_halts_iff _).mp ⟨halt, halts⟩⟩
  rcases halts_named_iff.mp halts with ⟨error, rfl, fault⟩ | ⟨rfl, torn⟩
  · refine ⟨.failingCall searched member fault, ?_, ?_⟩
    · rw [fault.obstacle]
      exact holds
    · rw [fault.obstacle]
      exact clear
  · exact ⟨.tornCall searched member torn, holds, clear⟩

/-- Behind an extraction that succeeds, a run stops for one of the last two obstacles or not at all. -/
theorem conclude_stage (set : SourceSet) (messages : List Message) (fileCount : Nat)
    (clear : Clear parser fs options functions Obstacle.missingDirectory.rank) :
    (∃ halt, (Run.conclude fs options set (.ok (messages, fileCount))).result = .error halt ∧
      Stops parser fs options functions halt) ∨
    (∃ summary, (Run.conclude fs options set (.ok (messages, fileCount))).result = .ok summary ∧
      ∀ obstacle : Obstacle, ¬ obstacle.Holds parser fs options functions) := by
  simp only [Run.conclude]
  obtain ⟨missing, failed⟩ | ⟨location, cause, located, standing, blocked, failed⟩ |
    ⟨changed, present, written, done⟩ :=
      Catalog.write_cases fs options.outputDir (Run.catalogText options messages)
  · rw [failed]
    exact .inl ⟨_, rfl, .missingDirectory, missing, clear⟩
  · rw [failed]
    have present := FileSystem.isDirectory_iff.mpr ⟨location, located, standing⟩
    have unwritable : Obstacle.unwritable.Holds parser fs options functions := fun text =>
      ⟨_, FileSystem.writeText_join_of_blocked located standing (by decide) blocked text⟩
    exact .inl ⟨_, rfl, .unwritable located blocked, unwritable,
      clear.past .missingDirectory (by simp [Obstacle.Holds, present])⟩
  · rw [done]
    have writable : ¬ Obstacle.unwritable.Holds parser fs options functions := by
      intro blocked
      obtain ⟨cause, failed⟩ := blocked (Run.catalogText options messages)
      cases written.symm.trans failed
    have free := (clear.past .missingDirectory (by simp [Obstacle.Holds, present])).past .unwritable
      writable
    refine .inr ⟨_, rfl, fun obstacle => free obstacle ?_⟩
    cases obstacle <;> decide

/-- **Run lemma of the order.** In whatever order its files are seen to, a run stops at the first
obstacle, or there is none and it succeeds. -/
theorem RunsTo.stops_or_clear (runs : RunsTo parser fs options (.named functions) outcome) :
    (∃ halt, outcome.result = .error halt ∧ Stops parser fs options functions halt) ∨
    (∃ summary, outcome.result = .ok summary ∧
      ∀ obstacle : Obstacle, ¬ obstacle.Holds parser fs options functions) := by
  obtain ⟨error, failed, stops⟩ | ⟨paths, scanned, clear⟩ := scan_stage parser fs options functions
  · cases runs with
    | unscanned failed' =>
      cases failed.symm.trans failed'
      exact .inl ⟨_, rfl, stops⟩
    | unloaded scanned => cases failed.symm.trans scanned
    | loaded scanned => cases failed.symm.trans scanned
  · cases runs with
    | unscanned failed => cases scanned.symm.trans failed
    | unloaded scanned' failed => exact .inl ⟨_, rfl, stops_of_loading_error scanned' clear failed⟩
    | @loaded _ _ set _ _ extracted scanned' loads extracts =>
      obtain ⟨loaded, _⟩ := Source.load_of_ends scanned' loads
      have read := clear.past .brokenFile (not_broken_of_load_ok loaded)
      cases extracted with
      | error halt => exact .inl ⟨halt, rfl, stops_of_extraction_error loaded read extracts⟩
      | ok found =>
        obtain ⟨messages, fileCount⟩ := found
        have sequential := (Stage.ends_ok_iff.mp extracts).2
        rw [SourceSet.extraction_sequential] at sequential
        obtain ⟨_, done, same⟩ := map_eq_ok.mp sequential
        cases same
        exact conclude_stage set messages _
          (read.past .failingCall (not_failingCall_of_extract_ok loaded done))

/-! ## Breakdowns -/

/-- A faithful parser leaves no torn calls in a file whose text does not start with two marks. -/
theorem Searched.not_tears (faithful : parser.Faithful) (searched : Searched parser fs options path file)
    (unmarked : ¬ DoubleMarked fs path) {call : CallSite} (member : call ∈ file.calls) :
    ¬ Tears functions file call := by
  obtain ⟨index, opened⟩ := searched.loads
  obtain ⟨⟨text, read, code⟩, _⟩ := Source.loadFile_parsed opened
  have wellCut : file.WellCut := Source.wellCut_of_loadFile faithful opened fun marked =>
    unmarked ⟨text, read, code ▸ marked⟩
  exact wellCut.not_tears member

end Harvest

import Harvest.Proofs.Run.Relocation

/-!
# A longer ignore list

An entry of an ignore list takes files out of a project, whichever entries stand around it. So a longer
list leaves some of the files that a shorter one leaves. These get other numbers, under which their
imports are kept, but give the same messages: what is found under the longer list is what is found under
the shorter one, less the messages of the files that are taken out.
-/

namespace Harvest

open Traversal
open TypeScript (ModuleParser)

/-! ## Files that are spared -/

instance (root : Path) (names : List String) (entry : String) :
    Decidable (Excludes root names entry) :=
  decidable_of_iff
    ((Glob.hasWildcard entry = true ∧ (Glob.compile entry).toOption.any (fun glob =>
        glob.matches (root.extend names).text || glob.matches ("/".intercalate names)) = true) ∨
      (Glob.hasWildcard entry = false ∧ (Path.mk entry).isAbsolute = false ∧
        (Path.mk entry).countedParts <+: names) ∨
      (Glob.hasWildcard entry = false ∧ (Path.mk entry).isAbsolute = true ∧
        (Path.mk entry).components <+: (root.extend names).components)) <| by
    constructor
    · rintro (⟨wild, found⟩ | ⟨plain, relative, front⟩ | ⟨plain, absolute, front⟩)
      · cases compiled : Glob.compile entry with
        | error fault =>
          rw [compiled] at found
          cases found
        | ok glob =>
          rw [compiled] at found
          exact .matched wild compiled ((Bool.or_eq_true _ _).mp found)
      · exact .below plain relative front
      · exact .absolute plain absolute front
    · intro excludes
      cases excludes with
      | matched wild compiled either =>
        rw [compiled]
        exact .inl ⟨wild, (Bool.or_eq_true _ _).mpr either⟩
      | below plain relative front => exact .inr (.inl ⟨plain, relative, front⟩)
      | absolute plain absolute front => exact .inr (.inr ⟨plain, absolute, front⟩)

/-- No entry of the ignore list excludes the file of that name below the root. -/
def Spared (root : Path) (ignore : List String) (file : String) : Prop :=
  ∀ entry ∈ ignore, ¬ Excludes root (Path.mk file).parts entry

instance (root : Path) (ignore : List String) (file : String) : Decidable (Spared root ignore file) :=
  inferInstanceAs (Decidable (∀ entry ∈ ignore, ¬ Excludes root (Path.mk file).parts entry))

variable {parser : ModuleParser} {fs : FileSystem} {root path : Path} {location : Location} {ignore names : List String}
  {shorter longer functions : List String} {paths : List Path} {set : SourceSet}

/-- A file that qualifies lies below the root, not at it. -/
theorem Qualifies.ne_nil (qualifies : Qualifies fs root location ignore names) : names ≠ [] := by
  obtain ⟨name, last, _⟩ := qualifies.isSource
  rintro rfl
  cases last

/-- What qualifies under a longer list qualifies under a shorter one. -/
theorem Qualifies.of_subset (included : shorter ⊆ longer)
    (qualifies : Qualifies fs root location longer names) :
    Qualifies fs root location shorter names := by
  obtain ⟨isFile, isSource, kept⟩ := qualifies
  exact ⟨isFile, isSource, fun entry member => kept entry (included member)⟩

private theorem qualifies_of_subset (included : shorter ⊆ longer) :
    Qualifies fs root location longer names ↔
      Qualifies fs root location shorter names ∧ ∀ entry ∈ longer, ¬ Excludes root names entry := by
  constructor
  · intro qualifies
    exact ⟨qualifies.of_subset included, qualifies.kept⟩
  · rintro ⟨⟨isFile, isSource, _⟩, kept⟩
    exact ⟨isFile, isSource, kept⟩

/-- The list of files for a longer ignore list is part of the one for a shorter list. -/
theorem Lists.filter (included : shorter ⊆ longer) {found : List (List String)}
    (lists : Lists fs root location shorter found) :
    Lists fs root location longer
      (found.filter fun names => ∀ entry ∈ longer, ¬ Excludes root names entry) := by
  constructor
  · intro names
    rw [List.mem_filter, lists.complete, qualifies_of_subset included, decide_eq_true_iff]
  · exact lists.increasing.filter _

namespace Source

/-- The paths of the files below the root that an ignore list spares. -/
def spared (root : Path) (ignore : List String) (paths : List Path) : List Path :=
  paths.filter fun path => Spared root ignore (Path.relativeName root path)

private theorem spared_eq_nil_iff :
    spared root ignore paths = [] ↔ ∀ path ∈ paths, ¬ Spared root ignore (Path.relativeName root path) := by
  simp only [spared, List.filter_eq_nil_iff, decide_eq_true_iff]

/-- What a scan gives for the paths of the files that were found. -/
def listed (root : Path) (paths : List Path) : Except LoadError (List Path) :=
  if paths = [] then .error (.noSourceFiles root) else .ok paths

/-- **Scans.** Under a longer ignore list a scan finds those of the files that it spares. -/
theorem scan_of_subset (included : shorter ⊆ longer) (compile : ∀ entry ∈ longer, Compiles entry)
    (scanned : scan fs root shorter = .ok paths) :
    scan fs root longer = listed root (spared root longer paths) := by
  obtain ⟨location, found, located, standing, _, lists, _, rfl⟩ := scan_eq_ok.mp scanned
  obtain ⟨found', lists', scanned'⟩ := scan_eq_report located standing compile
  have filled := FileSystem.text_ne_empty_of_locate located
  have kept : spared root longer (found.map root.extend) = found'.map root.extend := by
    rw [spared, ← (lists.filter included).unique lists', List.filter_map, List.filter_congr]
    intro names member
    have below := ((lists.complete names).mp member).ne_nil
    simp only [Function.comp_apply, Spared, Path.relativeName_extend filled (lists.isName member),
      Path.parts_intercalate (lists.isName member) below]
  rw [scanned', kept, report, listed]
  simp only [List.map_eq_nil_iff]

/-! ## Loading without numbers -/

/-- Loaded files have the paths that were scanned. -/
theorem paths_of_load (loaded : load parser fs root ignore = .ok set) (scanned : scan fs root ignore = .ok paths) :
    set.files.map (·.path) = paths := by
  obtain ⟨_, paths', scanned', read⟩ := load_eq_ok.mp loaded
  cases scanned.symm.trans scanned'
  rw [← List.zipIdx_map_fst 0 paths]
  generalize paths.zipIdx = numbered, set.files = files at read ⊢
  induction read with
  | nil => rfl
  | cons first _ ih => rw [List.map_cons, List.map_cons, ih, (loadFile_eq_ok first).2.1]

/-- Whether a file loads does not depend on the number that it gets. -/
theorem exists_loadFile_of_load (loaded : load parser fs root ignore = .ok set)
    (scanned : scan fs root ignore = .ok paths) (member : path ∈ paths) (index : Nat) :
    ∃ file, loadFile parser fs index path = .ok file := by
  rw [← paths_of_load loaded scanned] at member
  obtain ⟨file, inside, rfl⟩ := List.mem_map.mp member
  obtain ⟨_, index', _, _, opened⟩ := exists_loadFile loaded inside
  exact ⟨_, loadFile_congr rfl opened index⟩

private theorem exists_load (scanned : scan fs root ignore = .ok paths)
    (readable : ∀ path ∈ paths, ∀ index, ∃ file, loadFile parser fs index path = .ok file) :
    ∃ set, load parser fs root ignore = .ok set := by
  have each : ∀ numbered ∈ paths.zipIdx, ∃ file, loadFile parser fs numbered.2 numbered.1 = .ok file := by
    intro numbered member
    exact readable numbered.1 (List.fst_mem_of_mem_zipIdx member) numbered.2
  obtain ⟨files, read⟩ := exists_mapM_eq_ok.mpr each
  exact ⟨⟨root, files⟩, load_eq_ok.mpr ⟨rfl, paths, scanned, mapM_eq_ok.mp read⟩⟩

/-- The messages of the file at a path, which is loaded for them alone. -/
def messagesAt (parser : ModuleParser) (fs : FileSystem) (root : Path) (functions : List String)
    (path : Path) : Except Halt (List Message) := do
  let file ← (loadFile parser fs 0 path).mapError fun error => .failure (.load error)
  (Extractor.named functions).extract file (Path.relativeName root path)

/-- The messages of a file do not depend on the number under which it was loaded. -/
theorem messagesAt_of_loadFile {index : Nat} {file : SourceFile}
    (opened : loadFile parser fs index path = .ok file) (root : Path) (functions : List String) :
    messagesAt parser fs root functions path =
      (Extractor.named functions).extract file (Path.relativeName root path) := by
  rw [messagesAt, loadFile_congr rfl opened 0, ← Extractor.named_extract_renumbered functions file 0]
  rfl

/-- **Extractions.** The messages of a project are those of its scanned paths, one after the other. The
numbers of the files do not show in them. -/
theorem extract_eq_mapM_paths (loaded : load parser fs root ignore = .ok set)
    (scanned : scan fs root ignore = .ok paths) (functions : List String) :
    set.extract (set.extractor functions) = List.flatten <$>
      (paths.filter fun path => !isDeclaration path).mapM (messagesAt parser fs root functions) := by
  obtain ⟨atRoot, paths', scanned', read⟩ := load_eq_ok.mp loaded
  cases scanned.symm.trans scanned'
  have each : List.Forall₂ (fun numbered file =>
      (Extractor.named functions).extract file (set.nameOf file) = messagesAt parser fs root functions numbered.1)
      (paths.zipIdx.filter fun numbered => !isDeclaration numbered.1) set.searched := by
    apply (searched_of_load read).imp
    intro numbered file opened
    rw [messagesAt_of_loadFile opened, SourceSet.nameOf, atRoot, (loadFile_eq_ok opened).2.1]
  rw [SourceSet.extract_extractor loaded, SourceSet.extract, SourceSet.extractFrom_eq_mapM,
    mapM_eq_of_forall₂ each, ← map_fst_filter_zipIdx, List.mapM_map]
  rfl

/-- Every message of a file is under the name of the file. -/
theorem file_of_messagesAt {messages : List Message}
    (given : messagesAt parser fs root functions path = .ok messages) :
    ∀ message ∈ messages, message.file = Path.relativeName root path := by
  intro message member
  obtain ⟨file, _, extracted⟩ := bind_eq_ok.mp given
  obtain ⟨call, _, describes⟩ := exists_partner (describes_of_extract extracted) member
  exact describes.fileName

/-! ## Loading and extraction -/

/-- A longer ignore list that spares no file leaves no project. -/
theorem load_of_none_spared (included : shorter ⊆ longer) (compile : ∀ entry ∈ longer, Compiles entry)
    (scanned : scan fs root shorter = .ok paths) (none : spared root longer paths = []) :
    load parser fs root longer = .error (.noSourceFiles root) := by
  have scanned' := scan_of_subset included compile scanned
  rw [listed, if_pos none] at scanned'
  exact load_of_scan_error scanned'

/-- A project loads under a longer ignore list that spares a file. -/
theorem exists_load_of_spared (included : shorter ⊆ longer) (compile : ∀ entry ∈ longer, Compiles entry)
    (loaded : load parser fs root shorter = .ok set) (scanned : scan fs root shorter = .ok paths)
    (some : spared root longer paths ≠ []) :
    ∃ set', load parser fs root longer = .ok set' ∧ scan fs root longer = .ok (spared root longer paths) := by
  have scanned' := scan_of_subset included compile scanned
  rw [listed, if_neg some] at scanned'
  obtain ⟨set', loaded'⟩ := exists_load scanned' fun path member index =>
    exists_loadFile_of_load loaded scanned (List.mem_filter.mp member).1 index
  exact ⟨set', loaded', scanned'⟩

/-- The messages under a longer ignore list are those of the files that it spares. -/
theorem extract_of_subset {messages : List Message} {set' : SourceSet}
    (loaded : load parser fs root shorter = .ok set) (scanned : scan fs root shorter = .ok paths)
    (loaded' : load parser fs root longer = .ok set')
    (scanned' : scan fs root longer = .ok (spared root longer paths))
    (extracted : set.extract (set.extractor functions) = .ok messages) :
    set'.extract (set'.extractor functions) =
      .ok (messages.filter fun message => Spared root longer message.file) := by
  rw [extract_eq_mapM_paths loaded scanned] at extracted
  obtain ⟨lists, done, rfl⟩ := map_eq_ok.mp extracted
  rw [extract_eq_mapM_paths loaded' scanned', spared, List.filter_filter]
  simp only [Bool.and_comm (!isDeclaration _)]
  rw [← List.filter_filter]
  apply flatten_mapM_filter done
  intro path list given message member
  rw [file_of_messagesAt given message member]

/-- The order of an ignore list and repetitions in it do not matter. -/
theorem scan_eq_of_subsets (included : shorter ⊆ longer) (back : longer ⊆ shorter)
    (compile : ∀ entry ∈ longer, Compiles entry) : scan fs root longer = scan fs root shorter := by
  cases directory : fs.isDirectory root with
  | false => rw [scan_of_not_isDirectory directory, scan_of_not_isDirectory directory]
  | true =>
    obtain ⟨location, located, standing⟩ := FileSystem.isDirectory_iff.mp directory
    obtain ⟨found, lists, scanned⟩ := scan_eq_report located standing compile
    obtain ⟨found', lists', scanned'⟩ := scan_eq_report located standing fun entry member =>
      compile entry (included member)
    have same : Lists fs root location shorter found := by
      refine ⟨fun names => (lists.complete names).trans ?_, lists.increasing⟩
      exact ⟨fun qualifies => qualifies.of_subset included, fun qualifies => qualifies.of_subset back⟩
    rw [scanned, scanned', same.unique lists']

/-- So a project is loaded alike. -/
theorem load_eq_of_subsets (included : shorter ⊆ longer) (back : longer ⊆ shorter)
    (compile : ∀ entry ∈ longer, Compiles entry) : load parser fs root longer = load parser fs root shorter := by
  rw [load, load, scan_eq_of_subsets included back compile]

end Source

/-- **A longer ignore list takes files out and does nothing else.** Take two ignore lists, of which the
longer has all entries of the shorter and patterns that compile, and a project that loads and is
extracted under the shorter one. Under the longer one it has no source files exactly when each file is
excluded. Otherwise it loads and is extracted again, and its messages are those of the files that are
not excluded, in the same order and with all that is in them. With the same entries, in whatever order
and however often, two lists load the same project, and whole runs are the same. -/
theorem extraction_under_longer_ignore (parser : ModuleParser) (fs : FileSystem) (root : Path)
    (functions : List String) (included : shorter ⊆ longer) (compile : ∀ entry ∈ longer, Compiles entry) :
    (∀ set messages, Source.load parser fs root shorter = .ok set →
      set.extract (set.extractor functions) = .ok messages →
      (Source.load parser fs root longer = .error (.noSourceFiles root) ↔
        ∀ file ∈ set.files, ¬ Spared root longer (set.nameOf file)) ∧
      (Source.load parser fs root longer = .error (.noSourceFiles root) ∨
        ∃ set', Source.load parser fs root longer = .ok set' ∧
          set'.extract (set'.extractor functions) =
            .ok (messages.filter fun message => Spared root longer message.file))) ∧
    (longer ⊆ shorter → Source.load parser fs root longer = Source.load parser fs root shorter ∧
      ∀ (options : Options) (extractor : Extractor),
        run parser fs { options with projectDir := root, ignore := longer } extractor =
          run parser fs { options with projectDir := root, ignore := shorter } extractor) := by
  constructor
  · intro set messages loaded extracted
    obtain ⟨atRoot, paths, scanned, _⟩ := Source.load_eq_ok.mp loaded
    have files : (∀ file ∈ set.files, ¬ Spared root longer (set.nameOf file)) ↔
        Source.spared root longer paths = [] := by
      rw [Source.spared_eq_nil_iff, ← Source.paths_of_load loaded scanned, List.forall_mem_map]
      simp only [SourceSet.nameOf, atRoot]
    rw [files]
    by_cases none : Source.spared root longer paths = []
    · have failed : Source.load parser fs root longer = _ :=
        Source.load_of_none_spared included compile scanned none
      exact ⟨iff_of_true failed none, .inl failed⟩
    · obtain ⟨set', loaded', scanned'⟩ :=
        Source.exists_load_of_spared included compile loaded scanned none
      have extracted' := Source.extract_of_subset loaded scanned loaded' scanned' extracted
      refine ⟨?_, .inr ⟨set', loaded', extracted'⟩⟩
      rw [loaded']
      constructor
      · intro failed
        cases failed
      · intro empty
        exact absurd empty none
  · intro back
    have same : Source.load parser fs root longer = Source.load parser fs root shorter :=
      Source.load_eq_of_subsets included back compile
    refine ⟨same, fun options extractor => ?_⟩
    simp only [run, same]
    rfl

/-- Three files with messages. Of the second one the imports count, and without the first one it has
another number. -/
def specProject : FileSystem := .ofEntries [
  (["src"], .directory),
  (["src", "a.spec.ts"], .file "i18n('A')".toUTF8),
  (["src", "b.ts"], .file "import { i18n as t } from 'm'; t('B')".toUTF8),
  (["src", "gen"], .directory),
  (["src", "gen", "c.ts"], .file "t('C'); i18n('D')".toUTF8)]

/-- Entries that leave one of the files, written in two ways and twice. -/
def specIgnore : List String := ["*.spec.ts", "gen/", "lib", "gen"]

/-- Entries that leave no file. -/
def fullIgnore : List String := ["**/*.ts", "lib"]

/-- A longer list leaves the message of one file, and an even longer one leaves no project. -/
theorem specProject_under_longer_ignore :
    (∃ set messages set', Source.load TypeScript.parser specProject ⟨"src"⟩ ["lib"] = .ok set ∧
      set.extract (set.extractor ["i18n"]) = .ok messages ∧
      messages.map (·.source) = ["'A'", "'B'", "'D'"] ∧
      Source.load TypeScript.parser specProject ⟨"src"⟩ specIgnore = .ok set' ∧
      set'.extract (set'.extractor ["i18n"]) =
        .ok (messages.filter fun message => Spared ⟨"src"⟩ specIgnore message.file) ∧
      (messages.filter fun message => Spared ⟨"src"⟩ specIgnore message.file).map (·.source) =
        ["'B'"]) ∧
    Source.load TypeScript.parser specProject ⟨"src"⟩ fullIgnore = .error (.noSourceFiles ⟨"src"⟩) := by
  have whole : ((Source.load TypeScript.parser specProject ⟨"src"⟩ ["lib"]).toOption.map fun set =>
      ((set.extract (set.extractor ["i18n"])).toOption.map (List.map (·.source)),
        set.files.all fun file => ¬ Spared ⟨"src"⟩ fullIgnore (set.nameOf file))) =
        some (some ["'A'", "'B'", "'D'"], true) := by
    decide +kernel
  have less : ((Source.load TypeScript.parser specProject ⟨"src"⟩ specIgnore).toOption.map fun set =>
      (set.extract (set.extractor ["i18n"])).toOption.map (List.map (·.source))) = some (some ["'B'"]) := by
    decide +kernel
  have specIncluded : ["lib"] ⊆ specIgnore := by decide
  have fullIncluded : ["lib"] ⊆ fullIgnore := by decide
  cases loaded : Source.load TypeScript.parser specProject ⟨"src"⟩ ["lib"] with
  | error error =>
    rw [loaded] at whole
    cases whole
  | ok set =>
    rw [loaded] at whole
    obtain ⟨sources, excluded⟩ := Prod.mk.inj (Option.some.inj whole)
    cases extracted : set.extract (set.extractor ["i18n"]) with
    | error halt =>
      rw [extracted] at sources
      cases sources
    | ok messages =>
      rw [extracted] at sources
      have none := (extraction_under_longer_ignore TypeScript.parser specProject ⟨"src"⟩ ["i18n"] fullIncluded
        (by decide +kernel)).1 set messages loaded extracted
      have some := (extraction_under_longer_ignore TypeScript.parser specProject ⟨"src"⟩ ["i18n"] specIncluded
        (by decide +kernel)).1 set messages loaded extracted
      constructor
      · rcases some.2 with failed | ⟨set', loaded', extracted'⟩
        · rw [failed] at less
          cases less
        · rw [loaded'] at less
          have sources' : (set'.extract (set'.extractor ["i18n"])).toOption.map (List.map (·.source)) =
              .some ["'B'"] := Option.some.inj less
          rw [extracted'] at sources'
          exact ⟨set, messages, set', rfl, extracted, Option.some.inj sources, loaded', extracted',
            Option.some.inj sources'⟩
      · apply none.1.mpr
        intro file member
        simpa using List.all_eq_true.mp excluded file member

end Harvest

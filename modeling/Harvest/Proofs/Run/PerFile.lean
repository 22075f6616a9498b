import Harvest.Proofs.Message.Visit
import Harvest.Proofs.Source.ImportTable
import Harvest.Proofs.Source.Scan

/-!
# Files do not see each other

The imports of all files of a project are kept in one table, under numbers that are the places of the
files in the scan. A file alone in its project has another number there, and another table around it.
Still it gives the same messages: under its number each file finds its own imports and nothing else. So
the messages of a project are those of its files, each taken as a project of its own.
-/

namespace Harvest

open Traversal
open TypeScript (Tree ModuleParser)

/-! ## The extractor of a project -/

/-- The callee is one of the functions, where imports are looked up in the table of a project. -/
def Classifier.matchesCalleeIn (table : ImportTable) (functions : List String) (index : Nat) :
    Tree → Bool
  | .node (.identifier name) .. =>
    functions.contains name || (table.importedName? index name).any functions.contains
  | .node (.member (some name) _) .. => functions.contains name
  | _ => false

/-- Calls of the given functions give messages, where imports are looked up in the table of a
project. -/
def Classifier.byTable (table : ImportTable) (functions : List String) : Classifier := fun file call =>
  match call.callee with
  | none => .ok false
  | some callee =>
    if !matchesCalleeIn table functions file.index callee then .ok false
    else
      match textFault? call with
      | some fault => do
        let offset ← file.offset call.span
        .error (.failure (.classification file.path.text offset fault))
      | none => .ok true

/-- The extractor that takes calls of the given functions for messages and that knows the imports of all
files of the project. -/
def SourceSet.extractor (set : SourceSet) (functions : List String) : Extractor :=
  ⟨.byTable (.ofFiles set.files) functions, .byDigest⟩

/-- The messages of the project below a directory. -/
def Source.messages (parser : ModuleParser) (fs : FileSystem) (root : Path)
    (ignore functions : List String) : Except Halt (List Message) := do
  let set ← (load parser fs root ignore).mapError fun error => .failure (.load error)
  set.extract (set.extractor functions)

variable {parser : ModuleParser} {fs other : FileSystem} {root path : Path} {ignore functions : List String}
  {set : SourceSet} {file : SourceFile}

/-- What an extractor makes of a file depends on what it makes of the file's calls. -/
theorem Extractor.extract_congr {extractor extractor' : Extractor}
    (sameClass : ∀ call, extractor.classify file call = extractor'.classify file call)
    (sameId : ∀ call, extractor.identify file call = extractor'.identify file call) (name : String) :
    extractor.extract file name = extractor'.extract file name := by
  have sameOutcome : extractor.outcome file name = extractor'.outcome file name := by
    funext call
    simp only [outcome, message?, sameClass, sameId]
  rw [extract_eq_mapM, extract_eq_mapM, sameOutcome]

/-- A table in which the file finds its own imports does not change which calls give messages. -/
theorem Classifier.byTable_eq_byName {table : ImportTable}
    (resolves : ∀ name, table.importedName? file.index name = file.importedName? name)
    (call : CallSite) : byTable table functions file call = byName functions file call := by
  have sameCallee : ∀ callee,
      matchesCalleeIn table functions file.index callee = matchesCallee functions file callee := by
    intro callee
    cases callee with
    | call => rfl
    | node form span parts =>
      cases form with
      | identifier name =>
        show (functions.contains name || (table.importedName? file.index name).any functions.contains) =
          (functions.contains name || (file.importedName? name).any functions.contains)
        rw [resolves]
      | member property chained => cases property <;> rfl
      | _ => rfl
  unfold byTable byName
  cases call.callee with
  | none => rfl
  | some callee =>
    have same := sameCallee callee
    dsimp only
    generalize matchesCalleeIn table functions file.index callee = taken at same ⊢
    subst same
    rfl

/-- With the table of its project, a file is searched as it is on its own. -/
theorem SourceSet.extractor_extract (loaded : Source.load parser fs root ignore = .ok set)
    (member : file ∈ set.files) (functions : List String) (name : String) :
    (set.extractor functions).extract file name = (Extractor.named functions).extract file name := by
  have resolves := ImportTable.importedName?_ofFiles (Source.index_of_load loaded) member
  apply Extractor.extract_congr
  · intro call
    exact Classifier.byTable_eq_byName resolves call
  · intro call
    rfl

/-- The number of a file does not matter to what is found in it. -/
theorem Extractor.named_extract_renumbered (functions : List String) (file : SourceFile)
    (index : Nat) (name : String) :
    (named functions).extract { file with index } name = (named functions).extract file name := by
  rw [extract_eq_mapM, extract_eq_mapM]
  rfl

/-! ## The same file in two projects -/

/-- A file is loaded from its text alone; the number is given to it. -/
theorem Source.loadFile_congr (same : other.readText path = fs.readText path) {index : Nat}
    (loaded : loadFile parser fs index path = .ok file) (index' : Nat) :
    loadFile parser other index' path = .ok { file with index := index' } := by
  obtain ⟨text, parsed, found, read, rfl⟩ := loadFile_eq_ok_iff.mp loaded
  exact loadFile_eq_ok_iff.mpr ⟨text, parsed, same.trans found, read, rfl⟩

/-- A loaded file was loaded from its path, which was scanned. -/
theorem Source.exists_loadFile (loaded : load parser fs root ignore = .ok set) (member : file ∈ set.files) :
    ∃ paths index, scan fs root ignore = .ok paths ∧ file.path ∈ paths ∧
      loadFile parser fs index file.path = .ok file := by
  obtain ⟨_, paths, scanned, read⟩ := load_eq_ok.mp loaded
  obtain ⟨⟨path, index⟩, placed, opened⟩ := exists_partner read member
  have here := (loadFile_eq_ok opened).2.1
  rw [here]
  exact ⟨paths, index, scanned, List.fst_mem_of_mem_zipIdx placed, opened⟩

/-- **Two projects.** A file that has the same text in two projects gives the same messages, or halts
alike, in both. -/
theorem SourceSet.extract_eq_of_readText {ignore' : List String} {otherSet : SourceSet}
    {file' : SourceFile} (loaded : Source.load parser fs root ignore = .ok set)
    (otherLoaded : Source.load parser other root ignore' = .ok otherSet) (member : file ∈ set.files)
    (otherMember : file' ∈ otherSet.files) (samePath : file'.path = file.path)
    (sameText : other.readText file.path = fs.readText file.path) (functions : List String) :
    (otherSet.extractor functions).extract file' (otherSet.nameOf file') =
      (set.extractor functions).extract file (set.nameOf file) := by
  obtain ⟨_, index, _, _, opened⟩ := Source.exists_loadFile loaded member
  obtain ⟨_, index', _, _, opened'⟩ := Source.exists_loadFile otherLoaded otherMember
  have renumbered := Source.loadFile_congr sameText opened index'
  rw [samePath, renumbered] at opened'
  cases opened'
  rw [extractor_extract loaded member, extractor_extract otherLoaded otherMember,
    Extractor.named_extract_renumbered, nameOf, nameOf, (Source.load_eq_ok.mp loaded).1,
    (Source.load_eq_ok.mp otherLoaded).1]

/-! ## A file alone -/

/-- The directories of a file system and the file at one location. -/
def FileSystem.retain (fs : FileSystem) (place : Location) : FileSystem where
  entries := fs.entries.filter fun placed => placed.1 == place || placed.2 == .directory
  ordered := fs.ordered.filter _
  named := fun placed member => fs.named placed (List.mem_filter.mp member).1
  nested := by
    intro placed member
    refine (fs.nested placed (List.mem_filter.mp member).1).imp_right fun outer => ?_
    exact List.mem_filter.mpr ⟨outer, by simp⟩
  refusals := fs.refusals
  current := fs.current

/-- Directories stay, and the file at that location, and nothing else. -/
theorem FileSystem.entry?_retain {place location : Location} {entry : Entry} :
    FileSystem.entry? (fs.retain place) location = some entry ↔
      fs.entry? location = some entry ∧ (location = place ∨ entry = .directory) := by
  by_cases atRoot : location = []
  · rw [atRoot, entry?_nil, entry?_nil]
    constructor
    · intro standing
      exact ⟨standing, .inr (Option.some.inj standing).symm⟩
    · exact And.left
  · rw [← mem_entries_iff atRoot, ← mem_entries_iff atRoot]
    simp [retain, List.mem_filter]

/-- A project in which nothing is scanned but one file, which has the text that it has in another
project. -/
structure Single (fs : FileSystem) (root : Path) (ignore : List String) (path : Path)
    (single : FileSystem) : Prop where
  scanned : Source.scan single root ignore = .ok [path]
  sameText : single.readText path = fs.readText path

/-- Each scanned file can be had alone. -/
theorem exists_single {paths : List Path} (scanned : Source.scan fs root ignore = .ok paths)
    (member : path ∈ paths) : ∃ single, Single fs root ignore path single := by
  obtain ⟨location, found, located, standing, compile, lists, _, rfl⟩ := Source.scan_eq_ok.mp scanned
  obtain ⟨names, found, rfl⟩ := List.mem_map.mp member
  have qualifies := (lists.complete names).mp found
  obtain ⟨content, there⟩ := qualifies.isFile
  have kept : ∀ place, fs.entry? place = some .directory →
      FileSystem.entry? (fs.retain (location ++ names)) place = some .directory :=
    fun place directory => FileSystem.entry?_retain.mpr ⟨directory, .inr rfl⟩
  have stillThere : FileSystem.entry? (fs.retain (location ++ names)) (location ++ names) =
      some (.file content) := FileSystem.entry?_retain.mpr ⟨there, .inl rfl⟩
  have stillLocated := FileSystem.locate_of_kept kept rfl located
  refine ⟨fs.retain (location ++ names), Source.scan_eq_ok.mpr ⟨location, [names], stillLocated,
    kept location standing, compile, ⟨fun others => ?_, List.pairwise_singleton _ _⟩,
    List.cons_ne_nil _ _, rfl⟩, ?_⟩
  · rw [List.mem_singleton]
    constructor
    · rintro rfl
      exact ⟨⟨content, stillThere⟩, qualifies.isSource, qualifies.kept⟩
    · intro other
      obtain ⟨content', there'⟩ := other.isFile
      obtain ⟨_, same | directory⟩ := FileSystem.entry?_retain.mp there'
      · exact List.append_cancel_left same
      · cases directory
  · rw [FileSystem.readText_of_locate (FileSystem.locate_extend stillLocated stillThere),
      FileSystem.readText_of_locate (FileSystem.locate_extend located there),
      FileSystem.contentAt_of_file stillThere, FileSystem.contentAt_of_file there]
    rfl

/-- A searched file alone is a project with that file in it and no other. -/
theorem Single.load {single : FileSystem} (alone : Single fs root ignore file.path single)
    (loaded : Source.load parser fs root ignore = .ok set) (member : file ∈ set.files) :
    Source.load parser single root ignore = .ok ⟨root, [{ file with index := 0 }]⟩ := by
  obtain ⟨_, index, _, _, opened⟩ := Source.exists_loadFile loaded member
  have renumbered := Source.loadFile_congr alone.sameText opened 0
  exact Source.load_eq_ok.mpr ⟨rfl, [file.path], alone.scanned, .cons renumbered .nil⟩

/-! ## The messages of a project -/

/-- A loaded project gives the messages that its own extractor finds. -/
theorem Source.messages_of_load (loaded : load parser fs root ignore = .ok set) :
    messages parser fs root ignore functions = set.extract (set.extractor functions) := by
  rw [messages, loaded]
  rfl

/-- Searched files are files of the project. -/
theorem SourceSet.mem_files_of_mem_searched (member : file ∈ set.searched) : file ∈ set.files :=
  (List.mem_filter.mp member).1

/-- The table of imports does not show in the messages of a project: they are those that its files give on
their own. -/
theorem SourceSet.extract_extractor (loaded : Source.load parser fs root ignore = .ok set)
    (functions : List String) : set.extract (set.extractor functions) = set.extract (.named functions) := by
  rw [extract, extract, extractFrom_eq_mapM, extractFrom_eq_mapM]
  congr 1
  apply mapM_congr
  intro file searched
  exact extractor_extract loaded (mem_files_of_mem_searched searched) functions _

/-- A project is searched file by file, and a file alone gives what it gives among others. -/
theorem Source.messages_eq_mapM (loaded : load parser fs root ignore = .ok set) {single : Path → FileSystem}
    (alone : ∀ file ∈ set.searched, Single fs root ignore file.path (single file.path))
    (functions : List String) :
    messages parser fs root ignore functions = List.flatten <$>
      set.searched.mapM fun file => messages parser (single file.path) root ignore functions := by
  rw [messages_of_load loaded, SourceSet.extract, SourceSet.extractFrom_eq_mapM]
  congr 1
  apply mapM_congr
  intro file searched
  have member := SourceSet.mem_files_of_mem_searched searched
  have loadedAlone := (alone file searched).load loaded member
  have notDeclaration : file.isDeclaration = false := by
    simpa [SourceSet.searched] using (List.mem_filter.mp searched).2
  rw [messages_of_load loadedAlone, SourceSet.extract, SourceSet.extractFrom_eq_mapM]
  have itself : (SourceSet.mk root [{ file with index := 0 }]).searched =
      [{ file with index := 0 }] := by
    simp [SourceSet.searched, notDeclaration]
  rw [itself, List.mapM_cons, List.mapM_nil]
  have same := SourceSet.extract_eq_of_readText loaded loadedAlone member (List.mem_singleton.mpr rfl)
    rfl (alone file searched).sameText functions
  rw [same]
  cases (set.extractor functions).extract file (set.nameOf file) with
  | error halt => rfl
  | ok list => exact congrArg Except.ok (List.append_nil list).symm

/-- What is promised of the files of a project. -/
structure PerFile (parser : ModuleParser) (fs : FileSystem) (root : Path)
    (ignore functions : List String) (set : SourceSet) : Prop where
  /-- The shared table does not show in the messages. -/
  unshared : Source.messages parser fs root ignore functions = set.extract (.named functions)
  exists_single : ∀ file ∈ set.searched, ∃ single, Single fs root ignore file.path single
  succeeds : ∀ single : Path → FileSystem,
    (∀ file ∈ set.searched, Single fs root ignore file.path (single file.path)) →
    ((∃ messages, Source.messages parser fs root ignore functions = .ok messages) ↔
      ∀ file ∈ set.searched, ∃ messages,
        Source.messages parser (single file.path) root ignore functions = .ok messages)
  concatenated : ∀ single : Path → FileSystem,
    (∀ file ∈ set.searched, Single fs root ignore file.path (single file.path)) →
    ∀ messages, Source.messages parser fs root ignore functions = .ok messages ↔
      ∃ lists, List.Forall₂ (fun (file : SourceFile) list =>
        Source.messages parser (single file.path) root ignore functions = .ok list) set.searched lists ∧
        messages = lists.flatten
  /-- Whatever else changes between two projects, a file of the same text gives the same. -/
  unaffected : ∀ other ignore' otherSet, Source.load parser other root ignore' = .ok otherSet →
    ∀ file ∈ set.files, ∀ file' ∈ otherSet.files, file'.path = file.path →
      other.readText file.path = fs.readText file.path →
      (otherSet.extractor functions).extract file' (otherSet.nameOf file') =
        (set.extractor functions).extract file (set.nameOf file)
  /-- Only the imports of a file itself count for its calls. -/
  ownImports : ∀ file ∈ set.files, ∀ call,
    (set.extractor functions).classify file call = Classifier.byName functions file call

/-- **Files do not see each other.** The extraction of a project succeeds exactly when it does for each
searched file alone, and then gives the messages of those one-file projects in the order of the scan. A
file gives the same messages in every project that has it, whatever the other files are and import. -/
theorem load_per_file (loaded : Source.load parser fs root ignore = .ok set) (functions : List String) :
    PerFile parser fs root ignore functions set where
  unshared := (Source.messages_of_load loaded).trans (SourceSet.extract_extractor loaded functions)
  exists_single := by
    intro file searched
    obtain ⟨paths, _, scanned, member, _⟩ :=
      Source.exists_loadFile loaded (SourceSet.mem_files_of_mem_searched searched)
    exact Harvest.exists_single scanned member
  succeeds := by
    intro single alone
    rw [Source.messages_eq_mapM loaded alone, ← exists_mapM_eq_ok]
    simp only [map_eq_ok]
    exact ⟨fun ⟨_, lists, done, _⟩ => ⟨lists, done⟩, fun ⟨lists, done⟩ => ⟨_, lists, done, rfl⟩⟩
  concatenated := by
    intro single alone messages
    rw [Source.messages_eq_mapM loaded alone, map_eq_ok]
    simp only [mapM_eq_ok, eq_comm (b := messages)]
  unaffected := fun other ignore' otherSet otherLoaded file member file' otherMember samePath
      sameText => SourceSet.extract_eq_of_readText loaded otherLoaded member otherMember samePath
        sameText functions
  ownImports := fun file member call => Classifier.byTable_eq_byName
    (ImportTable.importedName?_ofFiles (Source.index_of_load loaded) member) call

/-- Two files that call `t`, which only the first one imports, and a declaration file. -/
def aliasProject : FileSystem := .ofEntries [
  (["src"], .directory),
  (["src", "a.ts"], .file "import { i18n as t } from 'm'; t('A')".toUTF8),
  (["src", "b.ts"], .file "t('B'); i18n('C')".toUTF8),
  (["src", "c.d.ts"], .file "declare const t: any".toUTF8)]

/-- Only the file that imports it calls `i18n` as `t`, and each file gives its own message. -/
theorem aliasProject_per_file :
    (Source.messages TypeScript.parser aliasProject ⟨"src"⟩ [] ["i18n"]).toOption.map
      (List.map fun message => (message.file, message.source)) =
        some [("a.ts", "'A'"), ("b.ts", "'C'")] ∧
    ∃ set, Source.load TypeScript.parser aliasProject ⟨"src"⟩ [] = .ok set ∧
      PerFile TypeScript.parser aliasProject ⟨"src"⟩ [] ["i18n"] set := by
  have loads : (Source.load TypeScript.parser aliasProject ⟨"src"⟩ []).isOk = true := by decide +kernel
  refine ⟨by decide +kernel, ?_⟩
  cases loaded : Source.load TypeScript.parser aliasProject ⟨"src"⟩ [] with
  | error error =>
    rw [loaded] at loads
    cases loads
  | ok set => exact ⟨set, rfl, load_per_file loaded ["i18n"]⟩

end Harvest

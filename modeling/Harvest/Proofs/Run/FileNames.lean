import Harvest.Proofs.Run.Ignored

/-!
# Files by their names

A message names its file as it is seen from the project's root. The name is made from the components of
the file's path: those of the root are taken away and the names among the others are joined. All other
components would get lost on the way, and if the path did not start with the root, the root's own names
would stand in front. Neither happens to a scanned file, however the root is spelled: the walk continues
the root by names only. So the name is all that has to be put behind the root to get the path again, and
no two files of a project have the same one.
-/

namespace Harvest

open Traversal

variable {parser : TypeScript.ModuleParser} {fs : FileSystem} {root path : Path} {location : Location} {ignore names : List String}
  {paths : List Path} {set : SourceSet} {extractor : Extractor} {messages : List Message}
  {message : Message}

/-! ## Scanned files -/

/-- What the name of a scanned file says. `names` lead to the file from the directory at `location`, which
the root leads to. -/
structure NamedFrom (fs : FileSystem) (root path : Path) (location : Location) (names : List String) :
    Prop where
  rooted : fs.locate root = .ok location
  leads : fs.locate path = .ok (location ++ names)
  isFile : ∃ content, fs.entry? (location ++ names) = some (.file content)
  /-- The path has the components of the root, then the names and nothing else. -/
  components : path.components = root.components ++ names.map .name
  /-- The name of the file is these names with slashes between them. -/
  name : Path.relativeName root path = "/".intercalate names
  filled : names ≠ []
  /-- None of them is empty, a dot or two dots, or has a slash in it. -/
  proper : ∀ name ∈ names, isName name = true
  /-- The name of the file does not start with a slash, and has no other components than the names. -/
  relative : (Path.mk (Path.relativeName root path)).isAbsolute = false
  read : (Path.mk (Path.relativeName root path)).components = names.map .name
  /-- Behind the root, the name of the file gives its path, letter by letter. -/
  joined : root.join ⟨Path.relativeName root path⟩ = path

/-- A file that a scan lists is named by the names that it is listed under. -/
theorem Lists.namedFrom {found : List (List String)} (lists : Lists fs root location ignore found)
    (located : fs.locate root = .ok location) (member : names ∈ found) :
    NamedFrom fs root (root.extend names) location names := by
  have qualifies := (lists.complete names).mp member
  obtain ⟨content, there⟩ := qualifies.isFile
  have named := lists.isName member
  have below := qualifies.ne_nil
  have rootFilled := FileSystem.text_ne_empty_of_locate located
  have name := Path.relativeName_extend rootFilled named
  refine ⟨located, FileSystem.locate_extend located there, ⟨content, there⟩,
    Path.components_extend rootFilled named, name, below, List.all_eq_true.mp named, ?_, ?_, ?_⟩
  · rw [name]
    exact Path.isAbsolute_intercalate named
  · rw [name]
    exact Path.components_intercalate named below
  · rw [name]
    exact Path.join_intercalate rootFilled named below

namespace Source

/-- Every scanned file is named from its root. -/
theorem exists_namedFrom (scanned : scan fs root ignore = .ok paths) (member : path ∈ paths) :
    ∃ location names, NamedFrom fs root path location names := by
  obtain ⟨location, found, located, _, _, lists, _, rfl⟩ := scan_eq_ok.mp scanned
  obtain ⟨names, listed, rfl⟩ := List.mem_map.mp member
  exact ⟨location, names, lists.namedFrom located listed⟩

/-- No two files that are scanned have the same name. -/
theorem nodup_relativeName (scanned : scan fs root ignore = .ok paths) :
    (paths.map (Path.relativeName root)).Nodup := by
  obtain ⟨location, found, located, _, _, lists, _, rfl⟩ := scan_eq_ok.mp scanned
  rw [List.map_map]
  refine lists.nodup.map_on fun names member others otherMember same => ?_
  -- Both names are read as the components that they were made from.
  have read := (lists.namedFrom located member).read
  have readOther := (lists.namedFrom located otherMember).read
  rw [show Path.relativeName root (root.extend names) = Path.relativeName root (root.extend others)
    from same, readOther] at read
  exact (List.map_injective_iff.mpr (fun _ _ => Path.Component.name.inj) read).symm

end Source

/-! ## The files of messages -/

/-- A message comes from a file, and what it says of its file is true of no other file. -/
structure Origin (set : SourceSet) (extractor : Extractor) (message : Message) (file : SourceFile) :
    Prop where
  searched : file ∈ set.searched
  given : ∃ list, extractor.extract file (set.nameOf file) = .ok list ∧ message ∈ list
  named : message.file = set.nameOf file
  joined : set.root.join ⟨message.file⟩ = file.path
  only : ∀ other ∈ set.files, set.nameOf other = message.file → other = file

/-- The files of a project are told apart by their names. -/
theorem SourceSet.eq_of_nameOf {file other : SourceFile} (loaded : Source.load parser fs root ignore = .ok set)
    (member : file ∈ set.files) (otherMember : other ∈ set.files)
    (same : set.nameOf file = set.nameOf other) : file = other := by
  obtain ⟨atRoot, paths, scanned, _⟩ := Source.load_eq_ok.mp loaded
  have distinct := Source.nodup_relativeName scanned
  rw [← Source.paths_of_load loaded scanned, List.map_map, ← atRoot] at distinct
  exact List.inj_on_of_nodup_map distinct member otherMember same

/-- Every message comes from one file, which its name for it determines. -/
theorem SourceSet.exists_origin (loaded : Source.load parser fs root ignore = .ok set)
    (extracted : set.extract extractor = .ok messages) (member : message ∈ messages) :
    ∃ file, Origin set extractor message file := by
  obtain ⟨lists, given, rfl⟩ := extract_eq_ok.mp extracted
  obtain ⟨list, listed, inside⟩ := List.mem_flatten.mp member
  obtain ⟨file, searched, gave⟩ := exists_partner given listed
  obtain ⟨call, _, describes⟩ := exists_partner (describes_of_extract gave) inside
  have there := mem_files_of_mem_searched searched
  obtain ⟨paths, _, scanned, placed, _⟩ := Source.exists_loadFile loaded there
  obtain ⟨location, names, named⟩ := Source.exists_namedFrom scanned placed
  refine ⟨file, searched, ⟨list, gave, inside⟩, describes.fileName, ?_, fun other otherThere same => ?_⟩
  · rw [describes.fileName, nameOf, (Source.load_eq_ok.mp loaded).1]
    exact named.joined
  · exact eq_of_nameOf loaded otherThere there (same.trans describes.fileName)

/-- **Names identify files.** However the root of a project is spelled, the name of a scanned file is the
names that lead to it from the root, with slashes between them; behind the root it gives the path of the
file again; no two files have the same name; and so the name that a message has for its file determines
the file that the message comes from. -/
theorem file_names_identify (scanned : Source.scan fs root ignore = .ok paths) :
    (∀ path ∈ paths, ∃ location names, NamedFrom fs root path location names) ∧
    (paths.map (Path.relativeName root)).Nodup ∧
    ∀ parser set extractor messages, Source.load parser fs root ignore = .ok set →
      set.extract extractor = .ok messages →
      ∀ message ∈ messages, ∃ file, Origin set extractor message file :=
  ⟨fun _ member => Source.exists_namedFrom scanned member, Source.nodup_relativeName scanned,
    fun _ _ _ _ loaded extracted _ member => SourceSet.exists_origin loaded extracted member⟩

/-- The directory of the project, with dots and slashes that do not count and with a way down and up. -/
def crookedRoot : Path := ⟨"./src/gen/..//"⟩

/-- However crooked the root is spelled, the files are named from it. -/
theorem crookedRoot_file_names :
    Source.scan specProject crookedRoot ["*.spec.ts"] =
      .ok [⟨"./src/gen/..//b.ts"⟩, ⟨"./src/gen/..//gen/c.ts"⟩] ∧
    (∃ location names, NamedFrom specProject crookedRoot ⟨"./src/gen/..//gen/c.ts"⟩ location names) ∧
    ∃ set messages, Source.load TypeScript.parser specProject crookedRoot ["*.spec.ts"] = .ok set ∧
      set.extract (.named ["i18n"]) = .ok messages ∧ messages.map (·.file) = ["b.ts", "gen/c.ts"] ∧
      ∀ message ∈ messages, ∃ file, Origin set (.named ["i18n"]) message file := by
  have scanned : Source.scan specProject crookedRoot ["*.spec.ts"] =
      .ok [⟨"./src/gen/..//b.ts"⟩, ⟨"./src/gen/..//gen/c.ts"⟩] := by decide +kernel
  have whole : ((Source.load TypeScript.parser specProject crookedRoot ["*.spec.ts"]).toOption.map fun set =>
      (set.extract (.named ["i18n"])).toOption.map (List.map (·.file))) =
        some (some ["b.ts", "gen/c.ts"]) := by
    decide +kernel
  obtain ⟨each, _, origins⟩ := file_names_identify scanned
  refine ⟨scanned, each _ (by simp), ?_⟩
  cases loaded : Source.load TypeScript.parser specProject crookedRoot ["*.spec.ts"] with
  | error error =>
    rw [loaded] at whole
    cases whole
  | ok set =>
    rw [loaded] at whole
    have files : (set.extract (.named ["i18n"])).toOption.map (List.map (·.file)) =
        some ["b.ts", "gen/c.ts"] := Option.some.inj whole
    cases extracted : set.extract (.named ["i18n"]) with
    | error halt =>
      rw [extracted] at files
      cases files
    | ok messages =>
      rw [extracted] at files
      exact ⟨set, messages, rfl, extracted, Option.some.inj files,
        origins _ set _ messages loaded extracted⟩

end Harvest

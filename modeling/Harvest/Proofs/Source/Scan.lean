import Harvest.Proofs.FileSystem.Walk
import Harvest.Proofs.Text.ByteOrder
import Harvest.Source.Scan
import Mathlib.Data.List.Nodup

/-!
# What a scan finds

A scan of a directory finds the files below it whose names end in `.ts` and that no entry of the ignore
list excludes. It lists each of them once, in the order of the names that lead to them, so that what is
in a directory stands where the directory's name does. When an entry excludes a file is said here on the
names that lead to the file, without the rules that entries are read into.
-/

namespace Harvest

open Traversal

/-- An entry of the ignore list excludes the file that names lead to from the root. -/
inductive Excludes (root : Path) (names : List String) (entry : String) : Prop where
  /-- A pattern excludes what it matches, by the path as walked or by the path as seen from the
  root. -/
  | matched {glob : Glob.Pattern} (wild : Glob.hasWildcard entry = true)
    (compiled : Glob.compile entry = .ok glob)
    (either : glob.matches (root.extend names).text = true ∨
      glob.matches ("/".intercalate names) = true)
  /-- A relative path excludes what starts with its parts. -/
  | below (plain : Glob.hasWildcard entry = false) (relative : (Path.mk entry).isAbsolute = false)
    (front : (Path.mk entry).countedParts <+: names)
  /-- An absolute path excludes what it leads to if the root is spelled from the same start. -/
  | absolute (plain : Glob.hasWildcard entry = false) (absolute : (Path.mk entry).isAbsolute = true)
    (front : (Path.mk entry).components <+: (root.extend names).components)

/-- An entry of the ignore list can be read: if it is meant as a pattern, it is one. -/
def Compiles (entry : String) : Prop :=
  Glob.hasWildcard entry = true → ∃ glob, Glob.compile entry = .ok glob

instance (entry : String) : Decidable (Compiles entry) :=
  decidable_of_iff (Glob.hasWildcard entry = true → (Glob.compile entry).isOk = true) <| by
    unfold Compiles
    cases Glob.compile entry <;> simp [Except.isOk, Except.toBool]

/-- A file that a scan has to find: `names` lead to it from the directory at `location`, which `root`
leads to. -/
structure Qualifies (fs : FileSystem) (root : Path) (location : Location) (ignore : List String)
    (names : List String) : Prop where
  isFile : ∃ content, fs.entry? (location ++ names) = some (.file content)
  isSource : ∃ name, names.getLast? = some name ∧ ".ts".toList <:+ name.toList
  kept : ∀ entry ∈ ignore, ¬ Excludes root names entry

/-- A list of the files that a scan has to find. -/
structure Lists (fs : FileSystem) (root : Path) (location : Location) (ignore : List String)
    (found : List (List String)) : Prop where
  complete : ∀ names, names ∈ found ↔ Qualifies fs root location ignore names
  increasing : found.Pairwise fun earlier later => earlier.map Text.bytes < later.map Text.bytes

variable {fs : FileSystem} {root : Path} {location : Location} {ignore names : List String}
  {entry : String}

/-- A listed file is reached by names only. -/
theorem Lists.isName {found : List (List String)} (lists : Lists fs root location ignore found)
    (member : names ∈ found) : names.all isName = true := by
  obtain ⟨content, there⟩ := ((lists.complete names).mp member).isFile
  have named := FileSystem.isName_of_entry? there
  rw [List.all_append, Bool.and_eq_true] at named
  exact named.2

/-- A listing names each file once. -/
theorem Lists.nodup {found : List (List String)} (lists : Lists fs root location ignore found) :
    found.Nodup := by
  refine lists.increasing.imp fun before same => ?_
  rw [same] at before
  exact List.lt_irrefl _ before

/-- There is one list of the files that a scan has to find. -/
theorem Lists.unique {found found' : List (List String)} (lists : Lists fs root location ignore found)
    (lists' : Lists fs root location ignore found') : found = found' := by
  have members : ∀ names, names ∈ found ↔ names ∈ found' := fun names =>
    (lists.complete names).trans (lists'.complete names).symm
  refine ((List.perm_ext_iff_of_nodup lists.nodup lists'.nodup).mpr members).eq_of_pairwise ?_
    lists.increasing lists'.increasing
  intro earlier later _ _ before behind
  exact absurd behind (List.lt_asymm before)

/-! ## Ignore lists -/

namespace IgnoreRule

/-- The entries of an ignore list are read one after another, up to the first invalid one. -/
theorem parseAll_eq_mapM (root : Path) (ignore : List String) :
    parseAll root ignore = ignore.mapM (parse root) := by
  induction ignore with
  | nil => rfl
  | cons entry ignore ih => rw [parseAll, List.mapM_cons, ih]

/-- An entry can be read exactly when it is a path or compiles. -/
theorem exists_parse_eq_ok : (∃ rule, parse root entry = .ok rule) ↔ Compiles entry := by
  unfold parse Compiles
  cases wild : Glob.hasWildcard entry with
  | false => simp
  | true => cases Glob.compile entry <;> simp

/-- Only an entry with a wildcard can be invalid, and the error repeats the entry and says what the
pattern compiler found. -/
theorem parse_eq_error {error : LoadError} :
    parse root entry = .error error ↔ ∃ fault, Glob.hasWildcard entry = true ∧
      Glob.compile entry = .error fault ∧ error = .invalidPattern entry fault.message := by
  unfold parse
  cases wild : Glob.hasWildcard entry with
  | false => simp
  | true => cases Glob.compile entry <;> simp [eq_comm]

/-- The rule that an entry is read into ignores the paths of the files that the entry excludes. -/
theorem ignores_iff_excludes {rule : IgnoreRule} (parsed : parse root entry = .ok rule)
    (filled : root.text ≠ "") (named : names.all isName = true) :
    rule.ignores root (root.extend names) = true ↔ Excludes root names entry := by
  unfold parse at parsed
  split at parsed
  · rename_i wild
    split at parsed
    · rename_i glob compiled
      cases parsed
      simp only [ignores, Bool.or_eq_true, Path.relativeName_extend filled named]
      refine ⟨.matched wild compiled, fun excludes => ?_⟩
      cases excludes with
      | matched _ compiled' either =>
        rw [compiled] at compiled'
        cases compiled'
        exact either
      | below plain => exact absurd wild (by simp [plain])
      | absolute plain => exact absurd wild (by simp [plain])
    · cases parsed
  · rename_i notWild
    cases parsed
    have plain : Glob.hasWildcard entry = false := Bool.eq_false_iff.mpr notWild
    simp only [ignores]
    cases start : (Path.mk entry).isAbsolute with
    | false =>
      rw [Path.startsWith_join filled start named]
      refine ⟨.below plain start, fun excludes => ?_⟩
      cases excludes with
      | matched wild => exact absurd wild notWild
      | below _ _ front => exact front
      | absolute _ absolute => exact absurd start (by simp [absolute])
    | true =>
      rw [Path.join, if_pos start, Path.startsWith, List.isPrefixOf_iff_prefix]
      refine ⟨.absolute plain start, fun excludes => ?_⟩
      cases excludes with
      | matched wild => exact absurd wild notWild
      | below _ relative => exact absurd start (by simp [relative])
      | absolute _ _ front => exact front

/-- No rule of a list ignores a path exactly when no entry of the list excludes its file. -/
theorem any_ignores_eq_false {rules : List IgnoreRule} (parsed : parseAll root ignore = .ok rules)
    (filled : root.text ≠ "") (named : names.all isName = true) :
    (rules.any fun rule => rule.ignores root (root.extend names)) = false ↔
      ∀ entry ∈ ignore, ¬ Excludes root names entry := by
  rw [parseAll_eq_mapM] at parsed
  induction mapM_eq_ok.mp parsed with
  | nil => simp
  | cons first _ ih =>
    rw [List.any_cons, Bool.or_eq_false_iff, ih (mapM_eq_ok.mpr ‹_›), List.forall_mem_cons,
      Bool.eq_false_iff, ne_eq, ignores_iff_excludes first filled named]

end IgnoreRule

/-! ## The files that belong to a project -/

namespace Source

private theorem isSource_extend (filled : root.text ≠ "") (named : names.all isName = true)
    (below : names ≠ []) : isSource (root.extend names) = true ↔
      ∃ name, names.getLast? = some name ∧ ".ts".toList <:+ name.toList := by
  obtain ⟨outer, name, rfl⟩ := (List.eq_nil_or_concat' names).resolve_left below
  unfold isSource
  rw [List.isSuffixOf_iff_suffix, Path.suffix_extend_concat (by decide) filled named]
  simp [suffix]

/-- The names that lead to the files of a project. -/
def filesOf (fs : FileSystem) (root : Path) (location : Location) (rules : List IgnoreRule) :
    List (List String) :=
  (fs.filesBelow fs.names location).filter fun names => belongs root rules (root.extend names)

/-- The files of a project are those that qualify, in their order. -/
theorem lists_filesOf {rules : List IgnoreRule} (located : fs.locate root = .ok location)
    (standing : fs.entry? location = some .directory)
    (parsed : IgnoreRule.parseAll root ignore = .ok rules) :
    Lists fs root location ignore (filesOf fs root location rules) := by
  have filled := FileSystem.text_ne_empty_of_locate located
  refine ⟨fun names => ?_, ?_⟩
  · unfold filesOf
    rw [List.mem_filter, FileSystem.mem_filesBelow fs.lists_names standing, belongs, Bool.and_eq_true, Bool.not_eq_true']
    have below : ∀ {content}, fs.entry? (location ++ names) = some (.file content) →
        names.all isName = true ∧ names ≠ [] := by
      intro content there
      have named := FileSystem.isName_of_entry? there
      rw [List.all_append, Bool.and_eq_true] at named
      refine ⟨named.2, ?_⟩
      rintro rfl
      rw [List.append_nil, standing] at there
      cases there
    constructor
    · rintro ⟨⟨content, there⟩, source, kept⟩
      obtain ⟨named, inside⟩ := below there
      exact ⟨⟨content, there⟩, (isSource_extend filled named inside).mp source,
        (IgnoreRule.any_ignores_eq_false parsed filled named).mp kept⟩
    · rintro ⟨⟨content, there⟩, source, kept⟩
      obtain ⟨named, inside⟩ := below there
      exact ⟨⟨content, there⟩, (isSource_extend filled named inside).mpr source,
        (IgnoreRule.any_ignores_eq_false parsed filled named).mpr kept⟩
  · exact ((FileSystem.pairwise_filesBelow fs.lists_names location).filter _).imp Text.map_bytes_lt_map_bytes

/-! ## The scan -/

/-- What a scan gives for the files that were found. -/
def report (root : Path) (found : List (List String)) : Except LoadError (List Path) :=
  if found = [] then .error (.noSourceFiles root) else .ok (found.map root.extend)

/-- However directories list their names, a scan is the same. -/
theorem scanBy_eq_scan {listing : Listing} (lists : listing.Lists fs) (root : Path)
    (ignore : List String) : scanBy listing fs root ignore = scan fs root ignore := by
  unfold scan scanBy
  rw [FileSystem.filesIn_eq_of_lists lists]

/-- A scan fails first if its root is no directory. -/
theorem scan_of_not_isDirectory (missing : fs.isDirectory root = false) :
    scan fs root ignore = .error (.missingRoot root) := by
  simp only [scan, scanBy, missing]
  rfl

/-- A scan fails next if an entry of the ignore list cannot be read. -/
theorem scan_of_parseAll_error {error : LoadError} (directory : fs.isDirectory root = true)
    (refused : IgnoreRule.parseAll root ignore = .error error) :
    scan fs root ignore = .error error := by
  simp only [scan, scanBy, directory, refused]
  rfl

/-- Otherwise a scan gives the files that belong to the project. -/
theorem scan_of_parseAll_ok {rules : List IgnoreRule} (located : fs.locate root = .ok location)
    (standing : fs.entry? location = some .directory)
    (parsed : IgnoreRule.parseAll root ignore = .ok rules) :
    scan fs root ignore = report root (filesOf fs root location rules) := by
  have directory := FileSystem.isDirectory_iff.mpr ⟨location, located, standing⟩
  have files : (fs.filesIn fs.names root).filter (belongs root rules) =
      (filesOf fs root location rules).map root.extend := by
    rw [FileSystem.filesIn_of_locate located, List.filter_map]
    rfl
  rw [scan, scanBy, directory, parsed]
  simp only [Bool.not_true, Bool.false_eq_true, if_false, bind, Except.bind, files]
  cases filesOf fs root location rules <;> rfl

/-- A scan of a directory with patterns that compile lists the files that qualify. -/
theorem scan_eq_report (located : fs.locate root = .ok location)
    (standing : fs.entry? location = some .directory) (compile : ∀ entry ∈ ignore, Compiles entry) :
    ∃ found, Lists fs root location ignore found ∧ scan fs root ignore = report root found := by
  have readable : ∀ entry ∈ ignore, ∃ rule, IgnoreRule.parse root entry = .ok rule :=
    fun entry member => IgnoreRule.exists_parse_eq_ok.mpr (compile entry member)
  obtain ⟨rules, traversed⟩ := exists_mapM_eq_ok.mpr readable
  have parsed := (IgnoreRule.parseAll_eq_mapM root ignore).trans traversed
  exact ⟨_, lists_filesOf located standing parsed, scan_of_parseAll_ok located standing parsed⟩

/-- All that a scan can come to: the root is no directory; or an entry of the ignore list is no
pattern, and the first such entry is named; or the files are listed. -/
theorem scan_cases (fs : FileSystem) (root : Path) (ignore : List String) :
    (fs.isDirectory root = false ∧ scan fs root ignore = .error (.missingRoot root)) ∨
    (fs.isDirectory root = true ∧ ∃ before entry after fault, ignore = before ++ entry :: after ∧
      (∀ earlier ∈ before, Compiles earlier) ∧ Glob.hasWildcard entry = true ∧
      Glob.compile entry = .error fault ∧
      scan fs root ignore = .error (.invalidPattern entry fault.message)) ∨
    ((∀ entry ∈ ignore, Compiles entry) ∧ ∃ location found, fs.locate root = .ok location ∧
      fs.entry? location = some .directory ∧ Lists fs root location ignore found ∧
      scan fs root ignore = report root found) := by
  cases directory : fs.isDirectory root with
  | false => exact .inl ⟨rfl, scan_of_not_isDirectory directory⟩
  | true =>
    right
    obtain ⟨location, located, standing⟩ := FileSystem.isDirectory_iff.mp directory
    cases parsed : ignore.mapM (IgnoreRule.parse root) with
    | error error =>
      left
      have scanned := scan_of_parseAll_error directory
        ((IgnoreRule.parseAll_eq_mapM root ignore).trans parsed)
      obtain ⟨before, entry, after, split, fine, refused⟩ := mapM_eq_error.mp parsed
      obtain ⟨fault, wild, fails, rfl⟩ := IgnoreRule.parse_eq_error.mp refused
      exact ⟨rfl, before, entry, after, fault, split,
        fun earlier member => IgnoreRule.exists_parse_eq_ok.mp (fine earlier member), wild, fails,
        scanned⟩
    | ok rules =>
      right
      have compile : ∀ entry ∈ ignore, Compiles entry := fun entry member =>
        IgnoreRule.exists_parse_eq_ok.mp (exists_mapM_eq_ok.mp ⟨rules, parsed⟩ entry member)
      obtain ⟨found, lists, scanned⟩ := scan_eq_report located standing compile
      exact ⟨compile, location, found, located, standing, lists, scanned⟩

/-- A scan succeeds exactly when its root is a directory, the patterns compile and there are files to be
found; it gives the paths of those files. -/
theorem scan_eq_ok {paths : List Path} : scan fs root ignore = .ok paths ↔
    ∃ location found, fs.locate root = .ok location ∧ fs.entry? location = some .directory ∧
      (∀ entry ∈ ignore, Compiles entry) ∧ Lists fs root location ignore found ∧ found ≠ [] ∧
      paths = found.map root.extend := by
  constructor
  · intro done
    obtain ⟨_, failed⟩ | ⟨_, _, _, _, _, _, _, _, _, failed⟩ |
      ⟨compile, location, found, located, standing, lists, scanned⟩ := scan_cases fs root ignore
    · rw [done] at failed
      cases failed
    · rw [done] at failed
      cases failed
    · rw [done, report] at scanned
      split at scanned
      · cases scanned
      · rename_i filled
        cases scanned
        exact ⟨location, found, located, standing, compile, lists, filled, rfl⟩
  · rintro ⟨location, found, located, standing, compile, lists, filled, rfl⟩
    obtain ⟨found', lists', scanned⟩ := scan_eq_report located standing compile
    rw [scanned, ← lists.unique lists', report, if_neg filled]

/-- What is promised of a scan where directories list their names as given. `root` leads to the directory
at `location`, and `found` are the names that lead from there to the files. -/
structure Finds (listing : Listing) (fs : FileSystem) (root : Path) (ignore : List String)
    (location : Location) (found : List (List String)) : Prop
    extends Lists fs root location ignore found where
  located : fs.locate root = .ok location
  /-- Behind the components of the root, the path of a file has the names that lead to it. -/
  spelled : ∀ names ∈ found, (root.extend names).components = root.components ++ names.map .name
  distinct : (found.map root.extend).Nodup
  listed : found ≠ [] → scanBy listing fs root ignore = .ok (found.map root.extend)
  empty : scanBy listing fs root ignore = .error (.noSourceFiles root) ↔ found = []

/-- **A scan finds the right files in the right order.** For every directory, every order in which the
system lists the names in its directories, and every ignore list whose patterns compile, the scan lists
the paths of the files below the directory that end in `.ts` and that no entry excludes: all of them, each
once, in the order of the bytes of the names that lead to them. It fails only if there is no such file.
The scan of a run, which takes the names as the file system holds them, gives the same. -/
theorem scan_finds_sources (listing : Listing) (fs : FileSystem) (root : Path) (ignore : List String)
    (listed : listing.Lists fs) (directory : fs.isDirectory root = true)
    (compile : ∀ entry ∈ ignore, Compiles entry) :
    (∃ location found, Finds listing fs root ignore location found) ∧
      scan fs root ignore = scanBy listing fs root ignore := by
  obtain ⟨location, located, standing⟩ := FileSystem.isDirectory_iff.mp directory
  obtain ⟨found, lists, scanned⟩ := scan_eq_report located standing compile
  rw [← scanBy_eq_scan listed] at scanned
  have filled := FileSystem.text_ne_empty_of_locate located
  refine ⟨⟨location, found, lists, located,
    fun names member => Path.components_extend filled (lists.isName member), ?_, ?_, ?_⟩,
    (scanBy_eq_scan listed root ignore).symm⟩
  · refine lists.nodup.map_on fun names member others otherMember same => ?_
    exact Path.extend_injective filled (lists.isName member) (lists.isName otherMember) same
  · intro some
    rw [scanned, report, if_neg some]
  · rw [scanned, report]
    by_cases none : found = [] <;> simp [none]

/-- A project with a directory that is named like a source file, with one whose contents come before a
file of a longer name, and with files to be ignored. -/
def sampleTree : FileSystem := .ofEntries [
  (["src"], .directory),
  (["src", "b"], .directory),
  (["src", "b", "inner.ts"], .file "".toUTF8),
  (["src", "b.spec.ts"], .file "".toUTF8),
  (["src", "b.ts"], .file "".toUTF8),
  (["src", "gen"], .directory),
  (["src", "gen", "a.ts"], .file "".toUTF8),
  (["src", "generated.ts"], .file "".toUTF8),
  (["src", "u.ts"], .directory),
  (["src", "u.ts", "é.ts"], .file "".toUTF8),
  (["src", "u.ts", "read.me"], .file "".toUTF8)]

/-- A system that lists the names in each directory of `sampleTree` backwards. -/
def backwards : Listing := fun location => (sampleTree.names location).reverse

/-- The files are found in their order although the directories list their names backwards. -/
theorem sampleTree_finds_sources :
    scanBy backwards sampleTree ⟨"./src/"⟩ [".//gen/.", "*.spec.ts"] =
      .ok [⟨"./src/b/inner.ts"⟩, ⟨"./src/b.ts"⟩, ⟨"./src/generated.ts"⟩, ⟨"./src/u.ts/é.ts"⟩] ∧
    ∃ location found,
      Finds backwards sampleTree ⟨"./src/"⟩ [".//gen/.", "*.spec.ts"] location found :=
  ⟨by decide +kernel, (scan_finds_sources backwards _ _ _ (fun _ => List.reverse_perm _)
    (by decide +kernel) (by decide +kernel)).1⟩

end Source

end Harvest

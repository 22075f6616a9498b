import Harvest.Proofs.Message.FirstFault
import Harvest.Proofs.Run.AllOrNothing
import Harvest.Proofs.Run.PerFile

/-!
# Moving a project

The root stands in every path that a scan walks, in the paths that the ignore list excludes and in the
paths that names are taken below. It cancels out of all of them: what is found below a directory, what
it is called in messages and what is taken out of it depends on the tree below the directory, not on
where the directory lies or how the path to it is spelled.
-/

namespace Harvest

open Traversal
open TypeScript (ModuleParser)

/-! ## Traversals side by side -/

namespace Traversal

variable {α β γ δ ε : Type}

/-- Traversals whose tasks have the same results have the same result. -/
theorem mapM_eq_of_forall₂ {f : α → Except ε γ} {g : β → Except ε γ} {xs : List α} {ys : List β}
    (paired : List.Forall₂ (fun x y => g y = f x) xs ys) : ys.mapM g = xs.mapM f := by
  induction paired with
  | nil => rfl
  | cons same _ ih => rw [List.mapM_cons, List.mapM_cons, same, ih]

/-- Traversals whose tasks fail together and have related results fail together and have related
results. -/
theorem mapM_together {f : α → Except ε γ} {g : β → Except ε δ} {R : γ → δ → Prop} {xs : List α}
    {ys : List β}
    (paired : List.Forall₂ (fun x y => (∃ e e', f x = .error e ∧ g y = .error e') ∨
      ∃ c d, f x = .ok c ∧ g y = .ok d ∧ R c d) xs ys) :
    (∃ e e', xs.mapM f = .error e ∧ ys.mapM g = .error e') ∨
      ∃ cs ds, xs.mapM f = .ok cs ∧ ys.mapM g = .ok ds ∧ List.Forall₂ R cs ds := by
  induction paired with
  | nil => exact .inr ⟨[], [], rfl, rfl, .nil⟩
  | cons first _ ih =>
    simp only [List.mapM_cons]
    rcases first with ⟨e, e', failed, failed'⟩ | ⟨c, d, done, done', related⟩
    · left
      rw [failed, failed']
      exact ⟨e, e', rfl, rfl⟩
    · rw [done, done']
      rcases ih with ⟨e, e', failed, failed'⟩ | ⟨cs, ds, all, all', allRelated⟩
      · left
        rw [failed, failed']
        exact ⟨e, e', rfl, rfl⟩
      · right
        rw [all, all']
        exact ⟨c :: cs, d :: ds, rfl, rfl, .cons related allRelated⟩

end Traversal

variable {parser : ModuleParser} {fs other : FileSystem} {root root' : Path} {ignore functions : List String}

/-! ## Twin directories -/

/-- Two paths lead to directories that have the same tree below them, of which the same can be read. Either
path may be spelled in any way. -/
structure Twins (fs : FileSystem) (root : Path) (other : FileSystem) (root' : Path)
    (location location' : Location) : Prop where
  located : fs.locate root = .ok location
  located' : other.locate root' = .ok location'
  standing : fs.entry? location = some .directory
  same : ∀ names, other.entry? (location' ++ names) = fs.entry? (location ++ names)
  readable : ∀ names,
    other.refusals.reading (location' ++ names) = fs.refusals.reading (location ++ names)

/-- What stands below a location, by the names that lead there. -/
def FileSystem.tree (fs : FileSystem) (location : Location) : List (List String × Entry) :=
  fs.entries.filterMap fun placed =>
    (location.isPrefixOf? placed.1).map fun names => (names, placed.2)

private theorem FileSystem.entry?_append {location : Location} (below : location ≠ []) (names : List String) :
    fs.entry? (location ++ names) =
      ((fs.tree location).find? (·.1 == names)).map Prod.snd := by
  unfold entry? find? tree
  rw [if_neg (List.append_ne_nil_of_left_ne_nil below names)]
  induction fs.entries with
  | nil => rfl
  | cons first rest ih =>
    rw [List.find?_cons, List.filterMap_cons]
    cases stripped : location.isPrefixOf? first.1 with
    | none =>
      have apart : (first.1 == location ++ names) = false := by
        rw [beq_eq_false_iff_ne]
        intro same
        rw [List.isPrefixOf?_eq_some_iff_append_eq.mpr same.symm] at stripped
        cases stripped
      rw [apart]
      exact ih
    | some inner =>
      have inside : first.1 = location ++ inner :=
        (List.isPrefixOf?_eq_some_iff_append_eq.mp stripped).symm
      have same : (first.1 == location ++ names) = (inner == names) := by
        rw [inside, Bool.eq_iff_iff, beq_iff_eq, beq_iff_eq, List.append_cancel_left_eq]
      rw [same]
      simp only [Option.map_some, List.find?_cons]
      cases inner == names with
      | true => rfl
      | false => exact ih

/-- Whether directories are twins can be seen from what is listed below them. -/
theorem FileSystem.entry?_eq_of_tree_eq {location location' : Location} (below : location ≠ [])
    (below' : location' ≠ []) (same : other.tree location' = fs.tree location) (names : List String) :
    other.entry? (location' ++ names) = fs.entry? (location ++ names) := by
  rw [entry?_append below, entry?_append below', same]

/-- An entry of an ignore list that says nothing of where the root lies: neither a pattern, which is
tried on whole paths, nor an absolute path. -/
def Rootless (entry : String) : Prop :=
  Glob.hasWildcard entry = false ∧ (Path.mk entry).isAbsolute = false

instance (entry : String) : Decidable (Rootless entry) := inferInstanceAs (Decidable (_ ∧ _))

private theorem Rootless.compiles {entry : String} (rootless : Rootless entry) : Compiles entry := by
  intro wild
  rw [rootless.1] at wild
  cases wild

/-- A rootless entry excludes what lies below its own parts, whatever the root. -/
theorem Rootless.excludes_iff {entry : String} (rootless : Rootless entry) {names : List String} :
    Excludes root names entry ↔ (Path.mk entry).countedParts <+: names := by
  constructor
  · intro excludes
    cases excludes with
    | matched wild => exact absurd wild (by simp [rootless.1])
    | below _ _ front => exact front
    | absolute _ absolute => exact absurd absolute (by simp [rootless.2])
  · exact .below rootless.1 rootless.2

namespace Twins

variable {location location' : Location} {names : List String}

private theorem standing' (twins : Twins fs root other root' location location') :
    other.entry? location' = some .directory := by
  have same := twins.same []
  rw [List.append_nil, List.append_nil] at same
  exact same.trans twins.standing

private theorem qualifies_iff (twins : Twins fs root other root' location location')
    (rootless : ∀ entry ∈ ignore, Rootless entry) :
    Qualifies other root' location' ignore names ↔ Qualifies fs root location ignore names := by
  have kept : (∀ entry ∈ ignore, ¬ Excludes root' names entry) ↔
      ∀ entry ∈ ignore, ¬ Excludes root names entry :=
    forall₂_congr fun entry member => by
      rw [(rootless entry member).excludes_iff, (rootless entry member).excludes_iff]
  constructor
  · rintro ⟨isFile, isSource, notExcluded⟩
    exact ⟨by rwa [twins.same] at isFile, isSource, kept.mp notExcluded⟩
  · rintro ⟨isFile, isSource, notExcluded⟩
    exact ⟨by rwa [twins.same], isSource, kept.mpr notExcluded⟩

private theorem lists (twins : Twins fs root other root' location location')
    (rootless : ∀ entry ∈ ignore, Rootless entry) {found : List (List String)}
    (lists : Lists fs root location ignore found) : Lists other root' location' ignore found :=
  ⟨fun names => (lists.complete names).trans (twins.qualifies_iff rootless).symm, lists.increasing⟩

/-- Scans of twin directories find the same files. -/
theorem scan_eq_report (twins : Twins fs root other root' location location')
    (rootless : ∀ entry ∈ ignore, Rootless entry) :
    ∃ found, Lists fs root location ignore found ∧
      Source.scan fs root ignore = Source.report root found ∧
      Source.scan other root' ignore = Source.report root' found := by
  have compile : ∀ entry ∈ ignore, Compiles entry := fun entry member =>
    (rootless entry member).compiles
  obtain ⟨found, lists, scanned⟩ := Source.scan_eq_report twins.located twins.standing compile
  obtain ⟨found', lists', scanned'⟩ := Source.scan_eq_report twins.located' twins.standing' compile
  rw [← (twins.lists rootless lists).unique lists'] at scanned'
  exact ⟨found, lists, scanned, scanned'⟩

/-! ## Files -/

/-- The files of twin directories have the same texts. -/
theorem readText_eq (twins : Twins fs root other root' location location') {content : ByteArray}
    (there : fs.entry? (location ++ names) = some (.file content)) :
    other.readText (root'.extend names) = fs.readText (root.extend names) := by
  have there' := (twins.same names).trans there
  rw [FileSystem.readText_of_locate (FileSystem.locate_extend twins.located' there'),
    FileSystem.readText_of_locate (FileSystem.locate_extend twins.located there),
    FileSystem.contentAt_of_file there', FileSystem.contentAt_of_file there, twins.readable]

end Twins

/-- Whether a file below a root only declares can be seen from its names. -/
theorem Source.isDeclaration_extend {names : List String} (filled : root.text ≠ "")
    (filled' : root'.text ≠ "") (named : names.all isName = true) (below : names ≠ []) :
    isDeclaration (root'.extend names) = isDeclaration (root.extend names) := by
  obtain ⟨outer, name, rfl⟩ := (List.eq_nil_or_concat' names).resolve_left below
  unfold isDeclaration
  rw [Bool.eq_iff_iff, List.isSuffixOf_iff_suffix, List.isSuffixOf_iff_suffix,
    Path.suffix_extend_concat (by decide) filled' named,
    Path.suffix_extend_concat (by decide) filled named]

/-- Files with the same text load alike, but for their paths. -/
theorem Source.loadFile_together {path path' : Path}
    (sameText : other.readText path' = fs.readText path)
    (sameKind : isDeclaration path' = isDeclaration path) (index : Nat) :
    (∃ error error', loadFile parser fs index path = .error error ∧
      loadFile parser other index path' = .error error') ∨
    ∃ file, loadFile parser fs index path = .ok file ∧
      loadFile parser other index path' = .ok { file with path := path' } := by
  unfold loadFile
  rw [sameText]
  cases fs.readText path with
  | error cause => exact .inl ⟨_, _, rfl, rfl⟩
  | ok text =>
    simp only [parse, sameKind]
    cases parser (isDeclaration path) (Text.dropByteOrderMark text.toList) with
    | error message => exact .inl ⟨_, _, rfl, rfl⟩
    | ok parsed => exact .inr ⟨_, rfl, rfl⟩

/-! ## Messages -/

private theorem Halt.inFile_inFile (halt : Halt) (first second : String) :
    (halt.inFile first).inFile second = halt.inFile second := by
  cases halt with
  | failure error => cases error <;> rfl
  | breakdown => rfl

/-- The path of a file stands in what is said of its calls, and nowhere else. -/
theorem Classifier.byName_moved (functions : List String) (file : SourceFile) (path : Path)
    (call : CallSite) :
    byName functions { file with path } call =
      (byName functions file call).mapError (·.inFile path.text) := by
  simp only [byName]
  cases call.callee with
  | none => rfl
  | some callee =>
    have sameCallee : matchesCallee functions { file with path } callee =
        matchesCallee functions file callee := rfl
    have sameOffset : SourceFile.offset { file with path } call.span = file.offset call.span := rfl
    simp only [sameCallee, sameOffset]
    cases matchesCallee functions file callee with
    | false => rfl
    | true =>
      cases textFault? call with
      | none => rfl
      | some fault =>
        obtain ⟨offset, placed⟩ | broken := file.offset_cases call.span
        · simp only [placed]
          rfl
        · simp only [broken]
          rfl

/-- An id does not depend on the path of a file, which stands only in what is said of its calls. -/
theorem Identifier.byDigest_moved (file : SourceFile) (path : Path) (call : CallSite) :
    byDigest { file with path } call = (byDigest file call).mapError (·.inFile path.text) := by
  have sameText (span : Text.Span) : SourceFile.text { file with path } span = file.text span := rfl
  have sameInput : digestInput { file with path } call = digestInput file call := rfl
  have sameOffset : SourceFile.offset { file with path } call.span = file.offset call.span := rfl
  simp only [byDigest, sameText, sameInput, sameOffset]
  cases call.argumentSpan? CallSite.idPosition with
  | none =>
    cases hashed : digestInput file call with
    | ok input => rfl
    | error halt =>
      obtain ⟨rfl, _⟩ := digestInput_eq_error.mp hashed
      rfl
  | some span =>
    obtain ⟨offset, placed⟩ | torn := file.offset_cases call.span <;>
      obtain ⟨text, shown⟩ | broken := file.text_cases span <;>
      cases (call.plainArgument? CallSite.idPosition).any isStringLiteral <;>
      simp only [*] <;> rfl

/-- The path of a file does not matter to what is found in it. -/
theorem Extractor.named_extract_moved (functions : List String) (file : SourceFile) (path : Path)
    (name : String) :
    (named functions).extract { file with path } name = (named functions).extract file name := by
  have sameOutcome : (named functions).outcome { file with path } name =
      (named functions).outcome file name := by
    funext call
    simp only [outcome, message?, named, Classifier.byName_moved, Identifier.byDigest_moved]
    cases Classifier.byName functions file call with
    | error halt => simp only [Except.mapError, bind, Except.bind, Halt.inFile_inFile]
    | ok taken =>
      cases taken with
      | false => rfl
      | true =>
        cases call.argumentSpan? CallSite.textPosition with
        | none => rfl
        | some span =>
          cases Identifier.byDigest file call with
          | error halt => simp [Except.mapError, bind, Except.bind, Halt.inFile_inFile]
          | ok id => rfl
  rw [extract_eq_mapM, extract_eq_mapM, sameOutcome]
  rfl

/-! ## Projects -/

/-- What the extraction of one file can halt with: a failure that names the file, or a breakdown, if the
file is not well cut. -/
inductive FileHalt (file : SourceFile) (name : String) : Halt → Prop where
  | classification (offset : Nat) (message : String) :
    FileHalt file name (.failure (.classification name offset message))
  | derivation (offset : Nat) (message : String) :
    FileHalt file name (.failure (.derivation name offset message))
  | breakdown (uncut : ¬ file.WellCut) : FileHalt file name .breakdown

/-- A file of a project and the file in its place in a moved one. They have the same name and give the
same messages or halt alike, for a call. -/
structure Moved (functions : List String) (set set' : SourceSet) (file file' : SourceFile) :
    Prop where
  name : set'.nameOf file' = set.nameOf file
  result : (Extractor.named functions).extract file' (set'.nameOf file') =
    (Extractor.named functions).extract file (set.nameOf file)
  halts : ∀ halt, (Extractor.named functions).extract file (set.nameOf file) = .error halt →
    FileHalt file (set.nameOf file) halt

/-- An extraction halts for a call of the file. -/
theorem fileHalt_of_extract_error {file : SourceFile} {name : String} {halt : Halt}
    (halted : (Extractor.named functions).extract file name = .error halt) : FileHalt file name halt := by
  obtain ⟨_, call, _, calls, _, halts⟩ := extract_eq_error.mp halted
  rcases halts_named_iff.mp halts with ⟨error, rfl, fault⟩ | ⟨rfl, torn⟩
  · cases fault with
    | textless => exact .classification _ _
    | spreadText => exact .classification _ _
    | idNotLiteral => exact .derivation _ _
  · exact .breakdown fun wellCut => wellCut.not_tears (by simp [calls]) torn

/-- A file that is loaded from below one root, and the same file from below another. -/
def Placed (root root' : Path) (file file' : SourceFile) : Prop :=
  ∃ names : List String, names.all isName = true ∧ file.path = root.extend names ∧
    file' = { file with path := root'.extend names }

/-- A file in its place is a moved one. -/
theorem Placed.moved {set set' : SourceSet} {file file' : SourceFile}
    (filled : set.root.text ≠ "") (filled' : set'.root.text ≠ "")
    (placed : Placed set.root set'.root file file') : Moved functions set set' file file' := by
  obtain ⟨names, named, path, rfl⟩ := placed
  have name : set'.nameOf { file with path := set'.root.extend names } = set.nameOf file := by
    unfold SourceSet.nameOf
    rw [path, Path.relativeName_extend filled' named, Path.relativeName_extend filled named]
  refine ⟨name, ?_, fun halt halted => fileHalt_of_extract_error halted⟩
  rw [name, Extractor.named_extract_moved]

/-- Twin directories fail to load together, or load file by file. -/
theorem Twins.load_together {location location' : Location}
    (twins : Twins fs root other root' location location')
    (rootless : ∀ entry ∈ ignore, Rootless entry) :
    (∃ error error', Source.load parser fs root ignore = .error error ∧
      Source.load parser other root' ignore = .error error') ∨
    ∃ files files', Source.load parser fs root ignore = .ok ⟨root, files⟩ ∧
      Source.load parser other root' ignore = .ok ⟨root', files'⟩ ∧
      List.Forall₂ (Placed root root') files files' := by
  obtain ⟨found, lists, scanned, scanned'⟩ := twins.scan_eq_report rootless
  have filled := FileSystem.text_ne_empty_of_locate twins.located
  have filled' := FileSystem.text_ne_empty_of_locate twins.located'
  by_cases nothing : found = []
  · rw [Source.report, if_pos nothing] at scanned scanned'
    exact .inl ⟨_, _, Source.load_of_scan_error scanned, Source.load_of_scan_error scanned'⟩
  rw [Source.report, if_neg nothing] at scanned scanned'
  rw [Source.load_of_scan scanned, Source.load_of_scan scanned', Source.loadFrom_eq_mapM,
    Source.loadFrom_eq_mapM, List.zipIdx_map, List.zipIdx_map]
  have files : (∃ error error',
      ((found.zipIdx.map (Prod.map root.extend id)).mapM fun numbered =>
        Source.loadFile parser fs numbered.2 numbered.1) = .error error ∧
      ((found.zipIdx.map (Prod.map root'.extend id)).mapM fun numbered =>
        Source.loadFile parser other numbered.2 numbered.1) = .error error') ∨
      ∃ files files',
      ((found.zipIdx.map (Prod.map root.extend id)).mapM fun numbered =>
        Source.loadFile parser fs numbered.2 numbered.1) = .ok files ∧
      ((found.zipIdx.map (Prod.map root'.extend id)).mapM fun numbered =>
        Source.loadFile parser other numbered.2 numbered.1) = .ok files' ∧
      List.Forall₂ (Placed root root') files files' := by
    apply mapM_together
    rw [List.forall₂_map_left_iff, List.forall₂_map_right_iff]
    apply List.forall₂_same.mpr
    rintro ⟨names, index⟩ numbered
    have listed := List.fst_mem_of_mem_zipIdx numbered
    have named := lists.isName listed
    obtain ⟨content, there⟩ := ((lists.complete names).mp listed).isFile
    have below : names ≠ [] := by
      rintro rfl
      rw [List.append_nil, twins.standing] at there
      cases there
    rcases Source.loadFile_together (twins.readText_eq there)
        (Source.isDeclaration_extend filled filled' named below) index with failed | ⟨file, loaded, loaded'⟩
    · exact .inl failed
    · exact .inr ⟨file, _, loaded, loaded',
        ⟨names, named, (Source.loadFile_eq_ok loaded).2.1, rfl⟩⟩
  rcases files with ⟨_, _, failed, failed'⟩ | ⟨files, files', loaded, loaded', placed⟩
  · left
    rw [failed, failed']
    exact ⟨_, _, rfl, rfl⟩
  · right
    rw [loaded, loaded']
    exact ⟨files, files', rfl, rfl, placed⟩

private theorem Placed.searched {files files' : List SourceFile}
    (placed : List.Forall₂ (Placed root root') files files') :
    List.Forall₂ (Placed root root') (SourceSet.mk root files).searched
      (SourceSet.mk root' files').searched := by
  apply List.rel_filter _ placed
  rintro file file' ⟨names, _, _, rfl⟩
  rfl

/-- What a run that succeeds leaves as the catalog. -/
theorem readText_of_result_ok {options : Options} {extractor : Extractor} {summary : Summary}
    (done : (run parser fs options extractor).result = .ok summary) :
    FileSystem.readText (run parser fs options extractor).files summary.catalogPath =
      .ok (Run.catalogText options summary.messages) := by
  obtain ⟨set, _, _, _, written⟩ := exists_write_of_result_ok done
  exact FileSystem.readText_of_writeText (Catalog.write_eq_ok written).2.2

/-- **Moving a project changes nothing.** Let two paths, each spelled in any way, lead to directories
with the same tree, and let the ignore list hold neither patterns nor absolute paths. Then either both
projects fail to load; or both load, file by file with the same names, and each searched file gives the
same messages in both or halts alike in both, so that the extractions give the same messages or halt
alike. Runs that succeed, with the same source language and wherever they write, leave the same
catalog. -/
theorem extraction_of_twins {location location' : Location}
    (twins : Twins fs root other root' location location')
    (rootless : ∀ entry ∈ ignore, Rootless entry) (functions : List String) :
    ((∃ error error', Source.load parser fs root ignore = .error error ∧
        Source.load parser other root' ignore = .error error') ∨
      ∃ set set', Source.load parser fs root ignore = .ok set ∧ Source.load parser other root' ignore = .ok set' ∧
        List.Forall₂ (Moved functions set set') set.searched set'.searched ∧
        set'.extract (.named functions) = set.extract (.named functions)) ∧
    ∀ options options' : Options, options'.sourceLang = options.sourceLang →
      let here := run parser fs { options with projectDir := root, ignore } (.named functions)
      let there := run parser other { options' with projectDir := root', ignore } (.named functions)
      ∀ summary summary', here.result = .ok summary → there.result = .ok summary' →
        summary'.messages = summary.messages ∧
        FileSystem.readText there.files summary'.catalogPath =
          FileSystem.readText here.files summary.catalogPath := by
  have ends : (∃ error error', Source.load parser fs root ignore = .error error ∧
        Source.load parser other root' ignore = .error error') ∨
      ∃ set set', Source.load parser fs root ignore = .ok set ∧ Source.load parser other root' ignore = .ok set' ∧
        List.Forall₂ (Moved functions set set') set.searched set'.searched ∧
        set'.extract (.named functions) = set.extract (.named functions) := by
    rcases twins.load_together rootless with failed | ⟨files, files', loaded, loaded', placed⟩
    · exact .inl failed
    have moved : List.Forall₂ (Moved functions ⟨root, files⟩ ⟨root', files'⟩) _ _ :=
      (Placed.searched placed).imp fun file file' pair =>
        Placed.moved (FileSystem.text_ne_empty_of_locate twins.located)
          (FileSystem.text_ne_empty_of_locate twins.located') pair
    refine .inr ⟨_, _, loaded, loaded', moved, ?_⟩
    unfold SourceSet.extract
    rw [SourceSet.extractFrom_eq_mapM, SourceSet.extractFrom_eq_mapM,
      mapM_eq_of_forall₂ (moved.imp fun _ _ pair => pair.result)]
  refine ⟨ends, ?_⟩
  intro options options' language here there summary summary' done done'
  obtain ⟨set, loaded, extracted, _⟩ := exists_write_of_result_ok done
  obtain ⟨set', loaded', extracted', _⟩ := exists_write_of_result_ok done'
  rcases ends with ⟨_, _, failed, _⟩ | ⟨_, _, loads, loads', _, same⟩
  · cases failed.symm.trans loaded
  cases loads.symm.trans loaded
  cases loads'.symm.trans loaded'
  have messages : summary'.messages = summary.messages :=
    Except.ok.inj (extracted'.symm.trans (same.trans extracted))
  refine ⟨messages, ?_⟩
  rw [readText_of_result_ok done, readText_of_result_ok done', messages, Run.catalogText,
    Run.catalogText, language]

/-- A project, and a copy of it elsewhere. -/
def twinProjects : FileSystem := .ofEntries [
  (["a"], .directory),
  (["a", "lib"], .directory),
  (["a", "lib", "skip.ts"], .file "i18n(".toUTF8),
  (["a", "x.ts"], .file "i18n('A')".toUTF8),
  (["deep"], .directory),
  (["deep", "b"], .directory),
  (["deep", "b", "lib"], .directory),
  (["deep", "b", "lib", "skip.ts"], .file "i18n(".toUTF8),
  (["deep", "b", "x.ts"], .file "i18n('A')".toUTF8)]

/-- The two copies load and give the same messages. -/
theorem twinProjects_extraction :
    ∃ set set', Source.load TypeScript.parser twinProjects ⟨"./a//"⟩ ["lib/"] = .ok set ∧
      Source.load TypeScript.parser twinProjects ⟨"/deep/b/../b"⟩ ["lib/"] = .ok set' ∧
      List.Forall₂ (Moved ["i18n"] set set') set.searched set'.searched ∧
      set'.extract (.named ["i18n"]) = set.extract (.named ["i18n"]) := by
  have loads : (Source.load TypeScript.parser twinProjects ⟨"./a//"⟩ ["lib/"]).isOk = true := by decide +kernel
  have twins : Twins twinProjects ⟨"./a//"⟩ twinProjects ⟨"/deep/b/../b"⟩ ["a"] ["deep", "b"] :=
    ⟨by decide +kernel, by decide +kernel, by decide +kernel,
      FileSystem.entry?_eq_of_tree_eq (by decide) (by decide) (by decide +kernel),
      fun _ => rfl⟩
  have rootless : ∀ entry ∈ ["lib/"], Rootless entry := by decide
  rcases (extraction_of_twins twins rootless ["i18n"]).1 with ⟨_, _, failed, _⟩ | loaded
  · rw [failed] at loads
    cases loads
  · exact loaded

end Harvest

import Harvest.Config.Load
import Harvest.Proofs.FileSystem.Directory
import Harvest.Proofs.Path.Ancestors

/-!
# The search for a configuration

The search goes up from a directory. In each one it looks for a configuration first and for the mark of a
repository's root then, and goes on when there is neither. So what it finds is the first configuration on
the way up with no mark before it, and it finds one whenever there is one.
-/

namespace Harvest

variable {fs : FileSystem} {directory start : Path} {name : String}

/-! ## What a directory contains -/

namespace FileSystem

/-- A path exists when it leads to a place that holds something. -/
theorem pathExists_iff {path : Path} :
    fs.pathExists path = true ↔ ∃ place, fs.locate path = .ok place ∧ fs.entry? place ≠ none := by
  unfold pathExists entryAt
  cases located : fs.locate path with
  | error cause => simp [bind, Except.bind]
  | ok place =>
    cases standing : fs.entry? place with
    | none => simp [bind, Except.bind, standing, throw, throwThe, MonadExceptOf.throw]
    | some entry => simp [bind, Except.bind, standing, pure, Except.pure]

/-- An entry of that name stands in the directory that the path leads to. The empty path stands for the
directory that relative paths start from. -/
def Contains (fs : FileSystem) (directory : Path) (name : String) : Prop :=
  ∃ place, (if directory = ⟨""⟩ then Except.ok fs.current else fs.locate directory) = .ok place ∧
    fs.entry? (place ++ [name]) ≠ none

instance : Decidable (fs.Contains directory name) :=
  decidable_of_iff
    (((if directory = ⟨""⟩ then Except.ok fs.current else fs.locate directory).toOption.any
      fun place => (fs.entry? (place ++ [name])).isSome) = true) <| by
    unfold Contains
    cases (if directory = ⟨""⟩ then Except.ok fs.current else fs.locate directory) with
    | error cause => simp [Except.toOption]
    | ok place => simp [Except.toOption, Option.isSome_iff_ne_none]

/-- A name alone is followed from where relative paths start. -/
theorem locate_name (named : isName name = true) (standing : fs.entry? fs.current = some .directory) :
    fs.locate ⟨name⟩ = .ok (fs.current ++ [name]) := by
  have filled : name.isEmpty ≠ true := by
    intro empty
    rw [String.isEmpty_iff.mp empty] at named
    exact absurd named (by decide)
  unfold locate
  rw [if_neg filled, Path.isAbsolute_of_isName named, Path.parts_of_isName named]
  simp only [Bool.false_eq_true, if_false, follow, standing, step_of_isName named]

private theorem directory_of_locate_name (named : isName name = true) {place : Location}
    (located : fs.locate ⟨name⟩ = .ok place) : fs.entry? fs.current = some .directory := by
  unfold locate at located
  rw [Path.isAbsolute_of_isName named, Path.parts_of_isName named] at located
  simp only [Bool.false_eq_true, if_false, follow] at located
  split at located
  · cases located
  · cases standing : fs.entry? fs.current with
    | none => simp [standing] at located
    | some entry =>
      cases entry with
      | file content => simp [standing] at located
      | directory => rfl

/-- A name joined to a directory exists when the directory contains the name. -/
theorem pathExists_join_iff (fs : FileSystem) (directory : Path) (named : isName name = true) :
    fs.pathExists (directory.join ⟨name⟩) = true ↔ fs.Contains directory name := by
  rw [pathExists_iff]
  unfold Contains
  by_cases empty : directory = ⟨""⟩
  · rw [if_pos empty, empty, Path.join_of_empty named]
    constructor
    · rintro ⟨place, located, there⟩
      have standing := directory_of_locate_name named located
      cases (locate_name named standing).symm.trans located
      exact ⟨_, rfl, there⟩
    · rintro ⟨place, here, there⟩
      cases here
      obtain ⟨entry, found⟩ := Option.ne_none_iff_exists'.mp there
      exact ⟨_, locate_name named (directory_of_entry?_concat found), there⟩
  · have filled : directory.text ≠ "" := fun blank => empty (congrArg Path.mk blank)
    rw [if_neg empty]
    constructor
    · rintro ⟨place, located, there⟩
      obtain ⟨outer, rfl⟩ := exists_concat_of_locate_join named located
      exact ⟨outer, locate_of_locate_join filled named located, there⟩
    · rintro ⟨place, located, there⟩
      obtain ⟨entry, found⟩ := Option.ne_none_iff_exists'.mp there
      exact ⟨_, locate_join named located (directory_of_entry?_concat found), there⟩

end FileSystem

namespace Config

/-! ## The nearest configuration -/

/-- A directory with nothing in it that ends the search. -/
def Undecided (fs : FileSystem) (directory : Path) : Prop :=
  ¬ fs.Contains directory fileName.text ∧ ¬ fs.Contains directory repositoryMark.text

/-- The directory at that place on a way contains a configuration, and every directory before it contains
neither a configuration nor the mark of a repository's root. -/
structure Nearest (fs : FileSystem) (way : Nat → Option Path) (times : Nat) (directory : Path) : Prop where
  reached : way times = some directory
  configured : fs.Contains directory fileName.text
  passed : ∀ fewer < times, ∀ nearer, way fewer = some nearer → Undecided fs nearer

/-- The nearest configuration is in the first directory of a way, or it is the nearest one of the rest and
the first directory leaves the search undecided. -/
theorem exists_nearest_iff {way : Nat → Option Path} {first : Path} (starts : way 0 = some first)
    {Wanted : Path → Prop} :
    (∃ times directory, Nearest fs way times directory ∧ Wanted directory) ↔
      fs.Contains first fileName.text ∧ Wanted first ∨
      Undecided fs first ∧ ∃ times directory,
        Nearest fs (fun times => way (times + 1)) times directory ∧ Wanted directory := by
  constructor
  · rintro ⟨times, directory, nearest, wanted⟩
    cases times with
    | zero =>
      cases starts.symm.trans nearest.reached
      exact .inl ⟨nearest.configured, wanted⟩
    | succ times =>
      refine .inr ⟨nearest.passed 0 (Nat.succ_pos _) _ starts, times, directory, ?_, wanted⟩
      exact ⟨nearest.reached, nearest.configured,
        fun fewer less => nearest.passed _ (Nat.succ_lt_succ less)⟩
  · rintro (⟨configured, wanted⟩ | ⟨undecided, times, directory, nearest, wanted⟩)
    · exact ⟨0, first, ⟨starts, configured, fun _ less => absurd less (Nat.not_lt_zero _)⟩, wanted⟩
    · refine ⟨times + 1, directory, ⟨nearest.reached, nearest.configured, ?_⟩, wanted⟩
      intro fewer less nearer reached
      cases fewer with
      | zero =>
        cases starts.symm.trans reached
        exact undecided
      | succ fewer => exact nearest.passed fewer (Nat.lt_of_succ_lt_succ less) nearer reached

/-- **The search finds the nearest configuration** of the directories that it goes through. -/
theorem findIn_eq_some_iff {directories : List Path} {found : Path} :
    findIn fs directories = some found ↔
      ∃ times directory, Nearest fs (fun times => directories[times]?) times directory ∧
        directory.join fileName = found := by
  induction directories with
  | nil =>
    constructor
    · intro nothing
      cases nothing
    · rintro ⟨times, directory, nearest, _⟩
      cases nearest.reached
  | cons first above ih =>
    have config : fs.pathExists (first.join fileName) = true ↔ fs.Contains first fileName.text :=
      fs.pathExists_join_iff first (by decide)
    have mark : fs.pathExists (first.join repositoryMark) = true ↔
        fs.Contains first repositoryMark.text := fs.pathExists_join_iff first (by decide)
    rw [exists_nearest_iff List.getElem?_cons_zero, findIn]
    simp only [List.getElem?_cons_succ, ← ih, Undecided]
    by_cases configured : fs.Contains first fileName.text
    · rw [if_pos (config.mpr configured)]
      simp [configured]
    · rw [if_neg (mt config.mp configured)]
      by_cases marked : fs.Contains first repositoryMark.text
      · rw [if_pos (mark.mpr marked)]
        simp [configured, marked]
      · rw [if_neg (mt mark.mp marked)]
        simp [configured, marked]

/-- The search finds the configuration file of the nearest ancestor that has one. -/
theorem find?_eq_some_iff {found : Path} :
    find? fs start = some found ↔
      ∃ times directory, Nearest fs start.ancestorAt? times directory ∧
        directory.join fileName = found := by
  unfold find?
  rw [findIn_eq_some_iff, funext start.getElem?_ancestors]

private theorem find?_eq_none_iff :
    find? fs start = none ↔ ∀ times directory, ¬ Nearest fs start.ancestorAt? times directory := by
  rw [Option.eq_none_iff_forall_ne_some]
  constructor
  · intro nothing times directory nearest
    exact nothing _ (find?_eq_some_iff.mpr ⟨times, directory, nearest, rfl⟩)
  · intro nowhere found there
    obtain ⟨times, directory, nearest, _⟩ := find?_eq_some_iff.mp there
    exact nowhere times directory nearest

/-- No mark stands nearer than the nearest configuration. -/
theorem Nearest.le_of_marked {way : Nat → Option Path} {times marked : Nat} {repository : Path}
    (nearest : Nearest fs way times directory) (reached : way marked = some repository)
    (mark : fs.Contains repository repositoryMark.text) : times ≤ marked := by
  by_contra beyond
  exact (nearest.passed marked (Nat.lt_of_not_le beyond) repository reached).2 mark

/-- One turn of the search. -/
theorem find?_eq (fs : FileSystem) (start : Path) :
    find? fs start =
      if fs.pathExists (start.join fileName) then some (start.join fileName)
      else if fs.pathExists (start.join repositoryMark) then none
      else start.parent?.bind (find? fs) := by
  unfold find?
  cases up : start.parent? with
  | none =>
    rw [Path.ancestors_of_top up]
    rfl
  | some parent =>
    rw [Path.ancestors_of_parent? up]
    rfl

/-- A configuration file in the directory itself is found before any other. -/
theorem find?_of_pathExists (there : fs.pathExists (start.join fileName) = true) :
    find? fs start = some (start.join fileName) := by
  rw [find?_eq, if_pos there]

/-! ## Where its paths start -/

/-- Paths start from where the nearest configuration lies, or from the start of the search. -/
theorem baseDir_of_load {loaded : Loaded} (loads : load fs start = .ok loaded) :
    (loaded.fromFile = true ∧ ∃ times directory, Nearest fs start.ancestorAt? times directory ∧
        loaded.baseDir.components = directory.components) ∨
      (loaded.fromFile = false ∧ (∀ times directory, ¬ Nearest fs start.ancestorAt? times directory) ∧
        loaded.baseDir = start) := by
  unfold load at loads
  cases found : find? fs start with
  | none =>
    simp only [found] at loads
    cases loads
    exact .inr ⟨rfl, find?_eq_none_iff.mp found, rfl⟩
  | some path =>
    obtain ⟨times, directory, nearest, rfl⟩ := find?_eq_some_iff.mp found
    have named : isName fileName.text = true := by decide
    obtain ⟨parent, up, same⟩ := Path.exists_parent?_join directory named
    simp only [found] at loads
    cases read : readFile fs (directory.join fileName) with
    | error error =>
      rw [read] at loads
      cases loads
    | ok config =>
      rw [read] at loads
      cases loads
      refine .inl ⟨rfl, times, directory, nearest, ?_⟩
      rw [show (directory.join fileName).parent? = some parent from up]
      exact same

/-- **The configuration that counts is the nearest one that no repository's root hides.** Going up from
the start drops one component at a time and ends at the root or at the empty path. On that way, what is
found is the first configuration with neither a configuration nor a mark in any directory before its own:
one beside a mark is found, one above it never. The paths of a configuration start from its directory, and
those of the default from the start. -/
theorem search_finds_nearest (fs : FileSystem) (start : Path) :
    (∀ times directory, start.ancestorAt? times = some directory →
      ∃ dropped, start.components = directory.components ++ dropped ∧ dropped.length = times) ∧
    (∃ count top, start.ancestorAt? count = some top ∧ start.ancestorAt? (count + 1) = none ∧
      (top = ⟨""⟩ ∨ top.components = [.root])) ∧
    (∀ found, find? fs start = some found ↔
      ∃ times directory, Nearest fs start.ancestorAt? times directory ∧
        directory.join fileName = found) ∧
    (find? fs start = none ↔ ∀ times directory, ¬ Nearest fs start.ancestorAt? times directory) ∧
    (∀ times directory, Nearest fs start.ancestorAt? times directory →
      ∀ marked repository, start.ancestorAt? marked = some repository →
        fs.Contains repository repositoryMark.text → times ≤ marked) ∧
    ∀ loaded, load fs start = .ok loaded →
      (loaded.fromFile = true ∧ ∃ times directory, Nearest fs start.ancestorAt? times directory ∧
        loaded.baseDir.components = directory.components) ∨
      (loaded.fromFile = false ∧ (∀ times directory, ¬ Nearest fs start.ancestorAt? times directory) ∧
        loaded.baseDir = start) :=
  ⟨fun _ _ => Path.components_of_ancestorAt?, start.exists_last_ancestor, fun _ => find?_eq_some_iff,
    find?_eq_none_iff, fun _ _ nearest _ _ => nearest.le_of_marked, fun _ => baseDir_of_load⟩

/-- A configuration at the root that one repository hides, and one beside the mark of another, which is
the working directory. -/
def twoRepositories : FileSystem :=
  { FileSystem.ofEntries [
      ([fileName.text], .file defaultText.toUTF8),
      (["app"], .directory),
      (["app", repositoryMark.text], .directory),
      (["app", "src"], .directory),
      (["lib"], .directory),
      (["lib", repositoryMark.text], .directory),
      (["lib", fileName.text], .file defaultText.toUTF8),
      (["lib", "src"], .directory)] with current := ["lib"] }

/-- The nearest file is that of the repository the search starts in, also from a relative path. The
mark of the other repository hides the file at the root. -/
theorem twoRepositories_nearest :
    find? twoRepositories ⟨"src"⟩ = some ⟨".xliffrc.json"⟩ ∧
      find? twoRepositories ⟨"/lib/src/"⟩ = some ⟨"/lib/.xliffrc.json"⟩ ∧
      find? twoRepositories ⟨"/app/src"⟩ = none := by
  have relative : Nearest twoRepositories (Path.mk "src").ancestorAt? 1 ⟨""⟩ := by
    refine ⟨by decide +kernel, by decide +kernel, fun fewer less nearer reached => ?_⟩
    obtain rfl : fewer = 0 := Nat.lt_one_iff.mp less
    cases reached
    exact ⟨by decide +kernel, by decide +kernel⟩
  have absolute : Nearest twoRepositories (Path.mk "/lib/src/").ancestorAt? 1 ⟨"/lib"⟩ := by
    refine ⟨by decide +kernel, by decide +kernel, fun fewer less nearer reached => ?_⟩
    obtain rfl : fewer = 0 := Nat.lt_one_iff.mp less
    cases reached
    exact ⟨by decide +kernel, by decide +kernel⟩
  have hidden (times : Nat) (directory : Path) :
      ¬ Nearest twoRepositories (Path.mk "/app/src").ancestorAt? times directory := by
    intro nearest
    have near := (search_finds_nearest twoRepositories ⟨"/app/src"⟩).2.2.2.2.1 times directory nearest
      1 ⟨"/app"⟩ (by decide +kernel) (by decide +kernel)
    have configured := nearest.configured
    have reached := nearest.reached
    obtain rfl | rfl : times = 0 ∨ times = 1 := by omega
    · cases reached
      exact absurd configured (by decide +kernel)
    · have same : (Path.mk "/app/src").ancestorAt? 1 = some ⟨"/app"⟩ := by decide +kernel
      cases same.symm.trans reached
      exact absurd configured (by decide +kernel)
  exact ⟨((search_finds_nearest _ _).2.2.1 _).mpr ⟨1, ⟨""⟩, relative, by decide +kernel⟩,
    ((search_finds_nearest _ _).2.2.1 _).mpr ⟨1, ⟨"/lib"⟩, absolute, by decide +kernel⟩,
    (search_finds_nearest _ _).2.2.2.1.mpr hidden⟩

end Config

end Harvest

import Harvest.Command.Run
import Harvest.Proofs.Run.Obstacle

/-!
# Patterns are checked before they are used

An ignore list is gone through twice. When a configuration is validated, its patterns are compiled to see
whether they can be; when a project is scanned, they are compiled to be matched. Both take the same
entries for patterns and stop at the first that is none, whatever it is that makes a text a pattern, so a
list that was validated is one that a scan can use. `extract` validates the list that is in force, with
the options in place of the configuration's fields, and so never gets as far as a scan with another one.
-/

namespace Harvest

open Traversal
open TypeScript (ModuleParser)

/-- The first entry of an ignore list that is meant as a pattern and is none, and why it is none. -/
structure FirstInvalid (ignore : List String) (entry : String) (fault : Glob.Fault) : Prop where
  first : ∃ before after, ignore = before ++ entry :: after ∧ ∀ earlier ∈ before, Compiles earlier
  wild : Glob.hasWildcard entry = true
  refused : Glob.compile entry = .error fault

variable {parser : ModuleParser} {fs : FileSystem} {root cwd : Path} {ignore : List String} {entry message : String}
  {fault : Glob.Fault} {config : Config}

/-! ## Going through a list -/

/-- What goes through a list and fails for an entry exactly if that does not compile, fails for the first
such entry. -/
theorem mapM_eq_error_iff_firstInvalid {α ε : Type} {check : String → Except ε α}
    {report : String → Glob.Fault → ε}
    (fine : ∀ entry, (∃ found, check entry = .ok found) ↔ Compiles entry)
    (fails : ∀ entry error, check entry = .error error ↔ ∃ fault, Glob.hasWildcard entry = true ∧
      Glob.compile entry = .error fault ∧ error = report entry fault) {error : ε} :
    ignore.mapM check = .error error ↔
      ∃ entry fault, FirstInvalid ignore entry fault ∧ error = report entry fault := by
  rw [mapM_eq_error]
  constructor
  · rintro ⟨before, entry, after, split, passed, failed⟩
    obtain ⟨fault, wild, refused, rfl⟩ := (fails entry error).mp failed
    have first := fun earlier member => (fine earlier).mp (passed earlier member)
    exact ⟨entry, fault, ⟨⟨before, after, split, first⟩, wild, refused⟩, rfl⟩
  · rintro ⟨entry, fault, ⟨⟨before, after, split, first⟩, wild, refused⟩, rfl⟩
    have passed := fun earlier member => (fine earlier).mpr (first earlier member)
    exact ⟨before, entry, after, split, passed, (fails entry _).mpr ⟨fault, wild, refused, rfl⟩⟩

/-! ## The list of a scan -/

/-- An ignore list cannot be used exactly if an entry does not compile, and the first is named. -/
theorem IgnoreRule.parseAll_eq_error {error : LoadError} : parseAll root ignore = .error error ↔
    ∃ entry fault, FirstInvalid ignore entry fault ∧
      error = .invalidPattern entry fault.message := by
  rw [parseAll_eq_mapM]
  exact mapM_eq_error_iff_firstInvalid (fun _ => exists_parse_eq_ok) fun _ _ => parse_eq_error

/-- The scan of a directory fails for a pattern exactly if one does not compile, and names the first. -/
theorem Source.scan_eq_invalidPattern (directory : fs.isDirectory root = true) :
    scan fs root ignore = .error (.invalidPattern entry message) ↔
      ∃ fault, FirstInvalid ignore entry fault ∧ message = fault.message := by
  constructor
  · intro failed
    obtain ⟨missing, _⟩ | ⟨_, before, entry', after, fault, split, fine, wild, refused, failed'⟩ |
      ⟨_, _, found, _, _, _, scanned⟩ := scan_cases fs root ignore
    · rw [directory] at missing
      cases missing
    · cases failed.symm.trans failed'
      exact ⟨fault, ⟨⟨before, after, split, fine⟩, wild, refused⟩, rfl⟩
    · rw [failed, report] at scanned
      split at scanned <;> cases scanned
  · rintro ⟨fault, first, rfl⟩
    exact scan_of_parseAll_error directory (IgnoreRule.parseAll_eq_error.mpr ⟨entry, fault, first, rfl⟩)

/-! ## The list of a configuration -/

namespace Config

/-- The validation of one entry of an ignore list. -/
def validateEntry (entry : String) : Except Invalid Unit :=
  if Glob.hasWildcard entry then
    match Glob.compile entry with
    | .ok _ => .ok ()
    | .error fault => .error (.pattern entry fault)
  else .ok ()

private theorem validateEntry_eq_ok : (∃ found, validateEntry entry = .ok found) ↔ Compiles entry := by
  unfold validateEntry Compiles
  cases wild : Glob.hasWildcard entry with
  | false => simp
  | true => cases Glob.compile entry <;> simp

private theorem validateEntry_eq_error {cause : Invalid} :
    validateEntry entry = .error cause ↔ ∃ fault, Glob.hasWildcard entry = true ∧
      Glob.compile entry = .error fault ∧ cause = .pattern entry fault := by
  unfold validateEntry
  cases wild : Glob.hasWildcard entry with
  | false => simp
  | true => cases Glob.compile entry <;> simp [eq_comm]

private theorem validatePatterns_eq_mapM (ignore : List String) :
    validatePatterns ignore = (fun _ => ()) <$> ignore.mapM validateEntry := by
  induction ignore with
  | nil => rfl
  | cons entry ignore ih =>
    rw [validatePatterns, List.mapM_cons, validateEntry, ih]
    cases Glob.hasWildcard entry with
    | false => cases ignore.mapM validateEntry <;> rfl
    | true =>
      cases Glob.compile entry with
      | error fault => rfl
      | ok glob => cases ignore.mapM validateEntry <;> rfl

private theorem validatePatterns_eq_error {cause : Invalid} : validatePatterns ignore = .error cause ↔
    ∃ entry fault, FirstInvalid ignore entry fault ∧ cause = .pattern entry fault := by
  rw [validatePatterns_eq_mapM, map_eq_error]
  exact mapM_eq_error_iff_firstInvalid (fun _ => validateEntry_eq_ok) fun _ _ => validateEntry_eq_error

/-- Patterns are validated before all else. -/
theorem validate_of_validatePatterns_error {cause : Invalid}
    (refused : validatePatterns config.ignore = .error cause) : config.validate = .error cause := by
  rw [validate, refused]
  rfl

/-- Behind its patterns a configuration can only be refused for its language or its functions. -/
theorem validate_of_validatePatterns_ok (fine : validatePatterns config.ignore = .ok ()) :
    config.validate = .ok () ∨ config.validate = .error .sourceLang ∨
      config.validate = .error .functions := by
  rw [validate, fine]
  cases Text.isBlank config.sourceLang with
  | true => exact .inr (.inl rfl)
  | false =>
    cases config.functions.all Text.isBlank with
    | true => exact .inr (.inr rfl)
    | false => exact .inl rfl

/-- A configuration is refused for a pattern exactly if one does not compile, and the first is named. -/
theorem validate_eq_pattern :
    config.validate = .error (.pattern entry fault) ↔ FirstInvalid config.ignore entry fault := by
  constructor
  · intro refused
    cases checked : validatePatterns config.ignore with
    | error cause =>
      obtain ⟨entry', fault', first, rfl⟩ := validatePatterns_eq_error.mp checked
      cases refused.symm.trans (validate_of_validatePatterns_error checked)
      exact first
    | ok _ =>
      rcases validate_of_validatePatterns_ok checked with valid | other | other
      · cases refused.symm.trans valid
      · cases refused.symm.trans other
      · cases refused.symm.trans other
  · intro first
    exact validate_of_validatePatterns_error (validatePatterns_eq_error.mpr ⟨entry, fault, first, rfl⟩)

/-- The patterns of a configuration that can be used compile. -/
theorem compiles_of_validate (valid : config.validate = .ok ()) :
    ∀ entry ∈ config.ignore, Compiles entry := by
  cases checked : config.ignore.mapM validateEntry with
  | error cause =>
    have refused : validatePatterns config.ignore = .error cause := by
      rw [validatePatterns_eq_mapM, checked]
      rfl
    cases valid.symm.trans (validate_of_validatePatterns_error refused)
  | ok found =>
    intro entry member
    exact validateEntry_eq_ok.mp (exists_mapM_eq_ok.mp ⟨found, checked⟩ entry member)

end Config

/-! ## The list in force -/

/-- A run never fails for a pattern of a list whose patterns compile. -/
theorem result_ne_invalidPattern {options : Options}
    (compile : ∀ entry ∈ options.ignore, Compiles entry) (functions : List String) :
    (run parser fs options (.named functions)).result ≠
      .error (.failure (.load (.invalidPattern entry message))) := by
  intro failed
  obtain ⟨_, failed', stops⟩ | ⟨_, done, _⟩ :=
    (runsTo_run parser fs options (.named functions)).stops_or_clear
  · cases failed.symm.trans failed'
    obtain ⟨bad, member, uncompiled⟩ := stops.holds
    exact uncompiled (compile bad member)
  · cases failed.symm.trans done

namespace Command

variable {flags : ExtractFlags} {colored : Bool} {loaded : Config.Loaded}

/-- An extraction whose list in force has an entry that is no pattern is refused before it is begun. -/
theorem extract_of_firstInvalid (loads : Config.load fs cwd = .ok loaded)
    (first : FirstInvalid (flags.override loaded.config).ignore entry fault) :
    (extract parser fs flags cwd colored).result = .error (.invalid (.pattern entry fault)) ∧
      (extract parser fs flags cwd colored).files = fs := by
  have refused := Config.validate_eq_pattern.mpr first
  constructor <;> simp only [extract, loads, refused]

/-- No extraction fails for a pattern after it has begun. -/
theorem extract_ne_invalidPattern (parser : ModuleParser) (fs : FileSystem) (flags : ExtractFlags)
    (cwd : Path) (colored : Bool) (directory : Path) (entry message : String) :
    (extract parser fs flags cwd colored).result ≠
      .error (.extraction directory (.load (.invalidPattern entry message))) := by
  cases loads : Config.load fs cwd with
  | error error =>
    simp only [extract, loads]
    intro same
    cases same
  | ok loaded =>
    cases valid : (flags.override loaded.config).validate with
    | error cause =>
      simp only [extract, loads, valid]
      intro same
      cases same
    | ok _ =>
      have never := @result_ne_invalidPattern parser fs entry message
        (extractOptions loaded flags cwd colored).1 (Config.compiles_of_validate valid)
        (flags.override loaded.config).functions
      simp only [extract, loads, valid]
      intro failed
      obtain ⟨halt, ended, same⟩ := mapError_eq_error.mp failed
      cases halt with
      | failure error =>
        cases same
        exact never ended
      | breakdown => cases same

/-- What the validation of a configuration and the scan of a directory say of the same patterns. -/
structure PatternsAgree (fs : FileSystem) (root : Path) (config : Config) : Prop where
  /-- Both fail for a pattern or neither does, and both name the same entry. -/
  together : ∀ entry message,
    Source.scan fs root config.ignore = .error (.invalidPattern entry message) ↔
      ∃ fault, config.validate = .error (.pattern entry fault) ∧ message = fault.message
  /-- The entry that is named is the first that does not compile. -/
  first : ∀ entry fault,
    config.validate = .error (.pattern entry fault) ↔ FirstInvalid config.ignore entry fault

/-- What becomes of patterns when messages are extracted. -/
structure PatternsSettled (parser : ModuleParser) (fs : FileSystem) (flags : ExtractFlags) (cwd : Path)
    (colored : Bool) : Prop where
  /-- The extraction itself does not fail for a pattern. -/
  never : ∀ directory entry message, (extract parser fs flags cwd colored).result ≠
    .error (.extraction directory (.load (.invalidPattern entry message)))
  /-- An entry in force that does not compile is refused before the extraction is begun. -/
  refused : ∀ loaded entry fault, Config.load fs cwd = .ok loaded →
    FirstInvalid (flags.override loaded.config).ignore entry fault →
    (extract parser fs flags cwd colored).result = .error (.invalid (.pattern entry fault)) ∧
      (extract parser fs flags cwd colored).files = fs

/-- **Validation and scans agree on patterns.** For every ignore list and every directory, a configuration
with the list is refused for a pattern exactly when a scan under the list fails for one, and both name the
same entry. So no options and no configuration file make an extraction fail for a pattern after it has
begun: the list in force has been validated. -/
theorem patterns_validated_as_scanned :
    (∀ (fs : FileSystem) (root : Path) (config : Config), fs.isDirectory root = true →
      PatternsAgree fs root config) ∧
    ∀ (parser : ModuleParser) (fs : FileSystem) (flags : ExtractFlags) (cwd : Path) (colored : Bool),
      PatternsSettled parser fs flags cwd colored := by
  refine ⟨fun fs root config directory => ⟨fun entry message => ?_, fun entry fault => ?_⟩,
    fun parser fs flags cwd colored => ⟨fun path entry message => ?_, fun loaded entry fault => ?_⟩⟩
  · simp only [Config.validate_eq_pattern]
    exact Source.scan_eq_invalidPattern directory
  · exact Config.validate_eq_pattern
  · exact extract_ne_invalidPattern parser fs flags cwd colored path entry message
  · exact extract_of_firstInvalid

/-- A list with brackets that are meant as they stand, a good pattern and two that are none. -/
def mixedIgnore : List String := ["gen[", "*.spec.ts", "a**", "b***"]

/-- The third entry is named, by the validation, the scan and the command alike. -/
theorem mixedIgnore_validated_as_scanned :
    let config : Config := { ignore := mixedIgnore, sourceLang := "" }
    let flags : ExtractFlags := { ignore := mixedIgnore }
    let fault : Glob.Fault := ⟨0, .partialComponent⟩
    config.validate = .error (.pattern "a**" fault) ∧
    Source.scan Source.sampleTree ⟨"./src/"⟩ config.ignore =
      .error (.invalidPattern "a**" fault.message) ∧
    (extract TypeScript.parser Source.sampleTree flags ⟨"/src"⟩ false).result =
      .error (.invalid (.pattern "a**" fault)) := by
  intro config flags fault
  have refused : config.validate = .error (.pattern "a**" fault) := by decide +kernel
  have agree := patterns_validated_as_scanned.1 Source.sampleTree ⟨"./src/"⟩ config (by decide +kernel)
  have settled := patterns_validated_as_scanned.2 TypeScript.parser Source.sampleTree flags ⟨"/src"⟩ false
  refine ⟨refused, (agree.together _ _).mpr ⟨fault, refused, rfl⟩, ?_⟩
  exact (settled.refused _ _ _ rfl ((agree.first _ _).mp refused)).1

end Command

end Harvest

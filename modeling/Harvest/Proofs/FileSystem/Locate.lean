import Harvest.FileSystem.Access
import Harvest.Proofs.Traversal

/-!
# Where a continued path leads

A path is continued by a name in one of three ways, which differ in where the slash stands. All of
them lead to the place of that name in the directory that the path leads to.
-/

namespace Harvest

open Traversal (bind_eq_ok)

/-! ## The parts of a continued path -/

namespace Path

/-- Splitting gives at least one part, also for the empty text. -/
theorem splitSlash_ne_nil (text : List Char) : splitSlash text ≠ [] := by
  cases text with
  | nil => exact nofun
  | cons c rest =>
    unfold splitSlash
    split
    · exact nofun
    · split <;> exact nofun

/-- A slash divides a text into the parts before it and the parts behind it. -/
theorem splitSlash_append (front back : List Char) :
    splitSlash (front ++ '/' :: back) = splitSlash front ++ splitSlash back := by
  induction front with
  | nil => rfl
  | cons c front ih =>
    rw [List.cons_append, splitSlash, splitSlash, ih]
    split
    · rfl
    · cases parts : splitSlash front with
      | nil => exact absurd parts (splitSlash_ne_nil front)
      | cons part parts => rfl

/-- A text without a slash is one part. -/
theorem splitSlash_of_not_mem {text : List Char} (plain : '/' ∉ text) : splitSlash text = [text] := by
  induction text with
  | nil => rfl
  | cons c text ih =>
    obtain ⟨first, others⟩ := not_or.mp (mt List.mem_cons.mpr plain)
    have differs : (c == '/') = false := beq_eq_false_iff_ne.mpr (Ne.symm first)
    rw [splitSlash, ih others]
    simp only [differs, Bool.false_eq_true, if_false]

/-- A slash separates the parts before it from the parts behind it. -/
theorem parts_append_slash (front back : String) :
    (Path.mk (front ++ "/" ++ back)).parts = (Path.mk front).parts ++ (Path.mk back).parts := by
  have chars : (front ++ "/" ++ back).toList = front.toList ++ '/' :: back.toList := by
    rw [String.toList_append, String.toList_append, List.append_assoc]
    rfl
  unfold parts
  rw [chars, splitSlash_append, List.map_append]

/-- A name is its own only part. -/
theorem parts_of_isName {name : String} (named : isName name = true) :
    (Path.mk name).parts = [name] := by
  simp only [isName, Bool.and_eq_true, Bool.not_eq_true', List.contains_eq_mem,
    decide_eq_false_iff_not] at named
  unfold parts
  rw [splitSlash_of_not_mem named.2, List.map_cons, List.map_nil, String.ofList_toList]

/-- A name is a relative path. -/
theorem isAbsolute_of_isName {name : String} (named : isName name = true) :
    (Path.mk name).isAbsolute = false := by
  simp only [isName, Bool.and_eq_true, Bool.not_eq_true', List.contains_eq_mem,
    decide_eq_false_iff_not] at named
  unfold isAbsolute
  rw [beq_eq_false_iff_ne]
  exact fun first => named.2 (List.mem_of_head? first)

/-- A path that is not empty starts where it started, whatever it is continued by. -/
theorem isAbsolute_append {front : String} (filled : front ≠ "") (back : String) :
    (Path.mk (front ++ back)).isAbsolute = (Path.mk front).isAbsolute := by
  unfold isAbsolute
  rw [String.toList_append]
  cases chars : front.toList with
  | nil => exact absurd (String.toList_eq_nil_iff.mp chars) filled
  | cons c rest => rfl

/-- A text that ends in a slash, without it. -/
theorem exists_append_slash {text : String} (last : text.toList.getLast? = some '/') :
    ∃ front, text = front ++ "/" := by
  obtain ⟨front, chars⟩ := List.getLast?_eq_some_iff.mp last
  refine ⟨String.ofList front, String.toList_inj.mp ?_⟩
  rw [chars, String.toList_append, String.toList_ofList]
  rfl

/-- A relative continuation adds its parts to those of a path, in place of the empty part behind a
slash at its end. -/
theorem parts_join_of_relative {base continuation : Path} (filled : base.text ≠ "")
    (relative : continuation.isAbsolute = false) :
    (base.join continuation).isAbsolute = base.isAbsolute ∧
      ∃ front, (base.join continuation).parts = front ++ continuation.parts ∧
        (base.parts = front ∨ base.parts = front ++ [""]) := by
  obtain ⟨text⟩ := base
  have notEmpty : text.isEmpty = false := by
    rw [Bool.eq_false_iff]
    exact fun empty => filled (String.isEmpty_iff.mp empty)
  unfold join
  rw [relative]
  simp only [Bool.false_eq_true, if_false, notEmpty, Bool.false_or, beq_iff_eq]
  by_cases ending : text.toList.getLast? = some '/'
  · obtain ⟨front, rfl⟩ := exists_append_slash ending
    rw [if_pos ending]
    refine ⟨isAbsolute_append filled _, (Path.mk front).parts, parts_append_slash _ _, .inr ?_⟩
    have split := parts_append_slash front ""
    rw [String.append_empty] at split
    rw [split]
    rfl
  · rw [if_neg ending]
    refine ⟨?_, (Path.mk text).parts, parts_append_slash _ _, .inl rfl⟩
    rw [String.append_assoc]
    exact isAbsolute_append filled _

/-- A continuation by a name adds that name. -/
theorem parts_join {base : Path} {name : String} (filled : base.text ≠ "")
    (named : isName name = true) :
    (base.join ⟨name⟩).isAbsolute = base.isAbsolute ∧
      ∃ front, (base.join ⟨name⟩).parts = front ++ [name] ∧
        (base.parts = front ∨ base.parts = front ++ [""]) := by
  rw [← parts_of_isName named]
  exact parts_join_of_relative filled (isAbsolute_of_isName named)

/-- The last part of a path continued by a name is that name, even if there is nothing before it. -/
theorem exists_parts_join (base : Path) {name : String} (named : isName name = true) :
    ∃ front, (base.join ⟨name⟩).parts = front ++ [name] := by
  by_cases filled : base.text = ""
  · have joined : base.join ⟨name⟩ = ⟨name⟩ := by
      unfold join
      rw [isAbsolute_of_isName named, filled]
      exact congrArg Path.mk String.empty_append
    rw [joined]
    exact ⟨[], parts_of_isName named⟩
  · obtain ⟨_, front, split, _⟩ := parts_join filled named
    exact ⟨front, split⟩

end Path

/-! ## Following a continued path -/

namespace FileSystem

variable {fs : FileSystem}

/-- Parts are followed one stretch after the other. -/
theorem follow_append (fs : FileSystem) (start : Location) (front back : List String) :
    fs.follow start (front ++ back) =
      fs.follow start front >>= fun reached => fs.follow reached back := by
  induction front generalizing start with
  | nil => rfl
  | cons part front ih =>
    rw [List.cons_append, follow, follow]
    cases fs.entry? start with
    | none => rfl
    | some entry =>
      cases entry with
      | file content => rfl
      | directory => exact ih (step start part)

/-- A path is a directory when it leads to a place that holds one. -/
theorem isDirectory_iff {path : Path} :
    fs.isDirectory path = true ↔
      ∃ location, fs.locate path = .ok location ∧ fs.entry? location = some .directory := by
  unfold isDirectory entryAt
  cases located : fs.locate path with
  | error cause => simp [bind, Except.bind]
  | ok location =>
    cases standing : fs.entry? location with
    | none => simp [bind, Except.bind, standing, throw, throwThe, MonadExceptOf.throw]
    | some entry => cases entry <;> simp [bind, Except.bind, standing, pure, Except.pure]

/-- A name leads one level down. -/
theorem step_of_isName {name : String} (named : isName name = true) (location : Location) :
    step location name = location ++ [name] := by
  simp only [isName, Bool.and_eq_true, bne_iff_ne, ne_eq] at named
  simp only [step, beq_iff_eq, named.1.1.1, named.1.1.2, named.1.2, Bool.or_eq_true, or_self,
    if_false]

/-- The name of a file in a directory leads to its place there. -/
theorem locate_join {directory : Path} {location : Location} {name : String}
    (named : isName name = true)
    (located : fs.locate directory = .ok location) (standing : fs.entry? location = some .directory) :
    fs.locate (directory.join ⟨name⟩) = .ok (location ++ [name]) := by
  unfold locate at located
  split at located
  · cases located
  · rename_i notEmpty
    have filled : directory.text ≠ "" := fun empty => notEmpty (String.isEmpty_iff.mpr empty)
    obtain ⟨sameStart, front, joined, split⟩ := Path.parts_join filled named
    have joinedFilled : (directory.join ⟨name⟩).text.isEmpty ≠ true := by
      intro empty
      have noParts : (directory.join ⟨name⟩).parts = [""] := by
        unfold Path.parts
        rw [String.isEmpty_iff.mp empty]
        rfl
      rw [joined] at noParts
      have last := congrArg List.getLast? noParts
      rw [List.getLast?_append, List.getLast?_singleton, List.getLast?_singleton] at last
      have unnamed : name = "" := Option.some.inj last
      rw [unnamed] at named
      exact absurd named (by decide)
    have stepped := step_of_isName named location
    unfold locate
    rw [if_neg joinedFilled, sameStart, joined, follow_append]
    -- Behind a final slash the empty part is followed too; it leads to the same directory.
    rcases split with plain | slashed
    · rw [plain] at located
      rw [located]
      simp only [bind, Except.bind, follow, standing, stepped]
    · rw [slashed, follow_append] at located
      obtain ⟨reached, before, behind⟩ := bind_eq_ok.mp located
      rw [before]
      unfold follow at behind
      split at behind
      · rename_i directory
        cases behind
        simp only [bind, Except.bind, follow, directory]
        rw [show step reached "" = reached from rfl] at stepped
        rw [stepped]
        rfl
      · cases behind
      · cases behind

/-- Whatever a path continued by a name leads to has that name. -/
theorem exists_concat_of_locate_join {directory : Path} {location : Location} {name : String}
    (named : isName name = true) (located : fs.locate (directory.join ⟨name⟩) = .ok location) :
    ∃ outer, location = outer ++ [name] := by
  obtain ⟨front, split⟩ := Path.exists_parts_join directory named
  unfold locate at located
  split at located
  · cases located
  · rw [split, follow_append] at located
    obtain ⟨reached, _, behind⟩ := bind_eq_ok.mp located
    unfold follow at behind
    split at behind
    · cases behind
      exact ⟨reached, step_of_isName named reached⟩
    · cases behind
    · cases behind

/-- What a path continued by a name leads to lies where the path leads. -/
theorem locate_of_locate_join {directory : Path} {outer : Location} {name : String}
    (filled : directory.text ≠ "") (named : isName name = true)
    (located : fs.locate (directory.join ⟨name⟩) = .ok (outer ++ [name])) :
    fs.locate directory = .ok outer := by
  obtain ⟨sameStart, front, joined, split⟩ := Path.parts_join filled named
  unfold locate at located ⊢
  rw [if_neg (mt String.isEmpty_iff.mp filled)]
  split at located
  · cases located
  · rw [sameStart, joined, follow_append] at located
    obtain ⟨reached, before, behind⟩ := bind_eq_ok.mp located
    unfold follow at behind
    split at behind
    · rename_i standing
      have same : reached ++ [name] = outer ++ [name] :=
        (step_of_isName named reached).symm.trans (Except.ok.inj behind)
      cases List.append_cancel_right same
      rcases split with plain | slashed
      · rw [plain, before]
      · rw [slashed, follow_append, before]
        simp only [bind, Except.bind, follow, standing]
        rfl
    · cases behind
    · cases behind

end FileSystem

end Harvest

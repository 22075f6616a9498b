/-!
# File systems

A file system is a list of entries, each at its location: the names on the way from the root. The list
is kept in the order of the locations, compared name by name, so that a directory comes before what is
in it and two file systems with the same entries are equal. Every location but the root lies in a
directory of the file system, and names are such as a path can spell. The system may refuse to read or to
write at a location.
-/

namespace Harvest

/-- A place in a file system: the names on the way from its root. -/
abbrev Location := List String

/-- What stands at a location. -/
inductive Entry where
  | file (content : ByteArray)
  | directory

/-- Entries can be compared; files are compared by their bytes. -/
instance Entry.decEq : DecidableEq Entry
  | .file a, .file b =>
    if same : a.data = b.data then .isTrue (by cases a; cases b; cases same; rfl)
    else .isFalse fun equal => same (by cases equal; rfl)
  | .directory, .directory => .isTrue rfl
  | .file _, .directory => .isFalse nofun
  | .directory, .file _ => .isFalse nofun

/-- Why a file cannot be accessed. -/
inductive AccessError where
  | notFound
  | notADirectory
  | isADirectory
  /-- The content is not UTF-8. -/
  | notText
  /-- Any other cause, in the system's own words. -/
  | other (text : String)
  deriving DecidableEq, Repr

/-- The system's words for a cause. -/
def AccessError.message : AccessError → String
  | .notFound => "No such file or directory (os error 2)"
  | .notADirectory => "Not a directory (os error 20)"
  | .isADirectory => "Is a directory (os error 21)"
  | .notText => "stream did not contain valid UTF-8"
  | .other text => text

/-- Where the system refuses to read or to write a file, and for what cause. What can be written can be
read. -/
structure Refusals where
  reading : Location → Option AccessError
  writing : Location → Option AccessError
  closed : ∀ location, writing location = none → reading location = none

/-- Nothing is refused. -/
def Refusals.none : Refusals where
  reading _ := .none
  writing _ := .none
  closed _ _ := rfl

/-- A name that a path can spell: not empty, not `.` or `..`, and without a slash. -/
def isName (text : String) : Bool :=
  text != "" && text != "." && text != ".." && !text.toList.contains '/'

/-- A file system, what it refuses, and the directory that relative paths start from. -/
structure FileSystem where
  entries : List (Location × Entry)
  ordered : entries.Pairwise (fun a b => a.1 < b.1)
  named : ∀ entry ∈ entries, entry.1 ≠ [] ∧ entry.1.all isName = true
  nested : ∀ entry ∈ entries, entry.1.dropLast = [] ∨ (entry.1.dropLast, Entry.directory) ∈ entries
  refusals : Refusals
  current : Location

namespace FileSystem

/-- The file system with nothing in it. -/
def empty : FileSystem where
  entries := []
  ordered := .nil
  named := by simp
  nested := by simp
  refusals := .none
  current := []

/-- The entry at a location in a list of entries. -/
def find? (entries : List (Location × Entry)) (location : Location) : Option Entry :=
  (entries.find? fun entry => entry.1 == location).map Prod.snd

/-- What stands at a location; the root is a directory. -/
def entry? (fs : FileSystem) (location : Location) : Option Entry :=
  if location = [] then some .directory else find? fs.entries location

/-- Puts an entry into an ordered list, in place of the one at its location if there is one. -/
def put (location : Location) (entry : Entry) :
    List (Location × Entry) → List (Location × Entry)
  | [] => [(location, entry)]
  | first :: rest =>
    if location < first.1 then (location, entry) :: first :: rest
    else if first.1 < location then first :: put location entry rest
    else (location, entry) :: rest

theorem eq_of_not_lt {a b : Location} (hab : ¬ a < b) (hba : ¬ b < a) : a = b :=
  List.le_antisymm (List.not_lt.mp hba) (List.not_lt.mp hab)

theorem mem_put {location : Location} {entry : Entry} {x : Location × Entry} :
    ∀ {entries : List (Location × Entry)}, x ∈ put location entry entries →
      x = (location, entry) ∨ x ∈ entries
  | [], h => by simp_all [put]
  | first :: rest, h => by
    unfold put at h
    split at h
    · simpa using h
    · split at h
      · rcases List.mem_cons.mp h with rfl | h
        · simp
        · rcases mem_put h with rfl | h
          · simp
          · simp [h]
      · rcases List.mem_cons.mp h with rfl | h
        · simp
        · simp [h]

theorem mem_put_self (location : Location) (entry : Entry) :
    ∀ entries : List (Location × Entry), (location, entry) ∈ put location entry entries
  | [] => by simp [put]
  | first :: rest => by
    unfold put
    split
    · simp
    · split
      · exact List.mem_cons_of_mem _ (mem_put_self location entry rest)
      · simp

theorem mem_put_of_ne {location : Location} {entry : Entry} {x : Location × Entry}
    (hx : x.1 ≠ location) :
    ∀ {entries : List (Location × Entry)}, x ∈ entries → x ∈ put location entry entries
  | first :: rest, h => by
    unfold put
    split
    · exact List.mem_cons_of_mem _ h
    · split
      · rcases List.mem_cons.mp h with rfl | h
        · simp
        · exact List.mem_cons_of_mem _ (mem_put_of_ne hx h)
      · rename_i hab hba
        rcases List.mem_cons.mp h with rfl | h
        · exact absurd (eq_of_not_lt hba hab) hx
        · exact List.mem_cons_of_mem _ h

theorem pairwise_put {location : Location} {entry : Entry} :
    ∀ {entries : List (Location × Entry)}, entries.Pairwise (fun a b => a.1 < b.1) →
      (put location entry entries).Pairwise (fun a b => a.1 < b.1)
  | [], _ => by simp [put]
  | first :: rest, h => by
    have hrest := List.pairwise_cons.mp h
    unfold put
    split
    · rename_i hlt
      refine List.pairwise_cons.mpr ⟨?_, h⟩
      intro x hx
      rcases List.mem_cons.mp hx with rfl | hx
      · exact hlt
      · exact List.lt_trans hlt (hrest.1 x hx)
    · split
      · rename_i hlt
        refine List.pairwise_cons.mpr ⟨?_, pairwise_put hrest.2⟩
        intro x hx
        rcases mem_put hx with rfl | hx
        · exact hlt
        · exact hrest.1 x hx
      · rename_i hab hba
        refine List.pairwise_cons.mpr ⟨?_, hrest.2⟩
        intro x hx
        have := hrest.1 x hx
        rwa [eq_of_not_lt hba hab] at this

theorem mem_of_find? {entries : List (Location × Entry)} {location : Location} {entry : Entry}
    (found : find? entries location = some entry) : (location, entry) ∈ entries := by
  unfold find? at found
  obtain ⟨x, hx, rfl⟩ := Option.map_eq_some_iff.mp found
  have key := List.find?_some hx
  have member := List.mem_of_find?_eq_some hx
  simp only [beq_iff_eq] at key
  subst key
  exact member

/-- An entry of the list is found at its location, since no other has it. -/
theorem entry?_of_mem (fs : FileSystem) {location : Location} {entry : Entry}
    (member : (location, entry) ∈ fs.entries) : fs.entry? location = some entry := by
  have filled := (fs.named _ member).1
  unfold entry?
  rw [if_neg filled]
  have ordered := fs.ordered
  revert member ordered
  induction fs.entries with
  | nil => simp
  | cons first rest ih =>
    intro member ordered
    have split := List.pairwise_cons.mp ordered
    unfold find?
    rw [List.find?_cons]
    rcases List.mem_cons.mp member with rfl | member
    · simp
    · have before := split.1 _ member
      have differs : (first.1 == location) = false := by
        rw [beq_eq_false_iff_ne]
        intro same
        simp only [same] at before
        exact List.lt_irrefl _ before
      simp only [differs]
      exact ih member split.2

/-! ## Changes -/

/-- A location can take an entry: its names can be spelled and it lies in a directory. -/
def canHold (fs : FileSystem) (location : Location) : Bool :=
  location ≠ [] && location.all isName && fs.entry? location.dropLast == some .directory

/-- Puts a file or a new directory at a location; what is a directory stays one. -/
def insert? (fs : FileSystem) (location : Location) (entry : Entry) : Option FileSystem :=
  if h : fs.canHold location = true ∧ (entry = .directory ∨ fs.entry? location ≠ some .directory) then
    some {
      entries := put location entry fs.entries
      ordered := pairwise_put fs.ordered
      named := by
        intro x hx
        obtain ⟨hold, _⟩ := h
        simp only [canHold, Bool.and_eq_true, decide_eq_true_eq] at hold
        rcases mem_put hx with rfl | hx
        · exact ⟨hold.1.1, hold.1.2⟩
        · exact fs.named x hx
      nested := by
        intro x hx
        obtain ⟨hold, keeps⟩ := h
        simp only [canHold, Bool.and_eq_true, decide_eq_true_eq, beq_iff_eq] at hold
        have stays : ∀ outer : Location, outer = [] ∨ (outer, Entry.directory) ∈ fs.entries →
            outer = [] ∨ (outer, Entry.directory) ∈ put location entry fs.entries := by
          intro outer houter
          rcases houter with hnil | member
          · exact .inl hnil
          · by_cases same : outer = location
            · subst same
              rcases keeps with rfl | free
              · exact .inr (mem_put_self _ _ _)
              · exact absurd (entry?_of_mem fs member) free
            · exact .inr (mem_put_of_ne same member)
        rcases mem_put hx with rfl | hx
        · refine stays location.dropLast ?_
          have outer := hold.2
          unfold entry? at outer
          split at outer
          · rename_i hnil
            exact .inl hnil
          · exact .inr (mem_of_find? outer)
        · exact stays x.1.dropLast (fs.nested x hx)
      refusals := fs.refusals
      current := fs.current }
  else none

end FileSystem

end Harvest

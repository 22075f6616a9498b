import Harvest.FileSystem.Access
import Harvest.Proofs.Traversal

/-!
# What a write changes

A write that succeeds puts one file at the location that its path leads to. Nothing stands elsewhere
that did not stand there before, and nothing is missing. A write that fails gives no file system at
all, so that its caller goes on with the one it had.
-/

namespace Harvest.FileSystem

open Traversal (bind_eq_ok bind_eq_error)

variable {fs changed : FileSystem} {location other : Location} {entry : Entry}

/-! ## Lookup -/

private theorem find?_cons (first : Location × Entry) (rest : List (Location × Entry)) (location : Location) :
    find? (first :: rest) location =
      if first.1 = location then some first.2 else find? rest location := by
  unfold find?
  rw [List.find?_cons]
  by_cases same : first.1 = location
  · simp only [same, BEq.rfl, Option.map_some, if_true]
  · have differs : (first.1 == location) = false := beq_eq_false_iff_ne.mpr same
    simp only [differs, if_neg same]

/-- An entry that is put is found at its location, and every other entry is found where it was. -/
theorem find?_put (location : Location) (entry : Entry) (entries : List (Location × Entry))
    (other : Location) :
    find? (put location entry entries) other =
      if other = location then some entry else find? entries other := by
  induction entries with
  | nil =>
    rw [put, find?_cons]
    simp only [eq_comm]
  | cons first rest ih =>
    unfold put
    split
    · rw [find?_cons]
      simp only [eq_comm]
    · rename_i notBefore
      split
      · rename_i before
        rw [find?_cons, find?_cons, ih]
        by_cases here : first.1 = other
        · have apart : other ≠ location := by
            rintro rfl
            rw [here] at before
            exact List.lt_irrefl _ before
          rw [if_pos here, if_neg apart, if_pos here]
        · rw [if_neg here, if_neg here]
      · rename_i notBehind
        have same : first.1 = location := eq_of_not_lt notBehind notBefore
        rw [find?_cons, find?_cons, same]
        by_cases here : other = location
        · rw [if_pos here.symm, if_pos here]
        · rw [if_neg (Ne.symm here), if_neg here, if_neg (Ne.symm here)]

/-! ## Insertion -/

/-- Files of different names stand at different locations. -/
theorem concat_ne_concat {name name' : String} (apart : name ≠ name') :
    location ++ [name] ≠ other ++ [name'] := by
  intro same
  have lasts := congrArg List.getLast? same
  rw [List.getLast?_concat, List.getLast?_concat] at lasts
  exact apart (Option.some.inj lasts)

/-- All that an insertion has done and all that it has asked for. -/
structure Inserted (fs : FileSystem) (location : Location) (entry : Entry) (changed : FileSystem) : Prop where
  filled : location ≠ []
  allowed : entry = .directory ∨ fs.entry? location ≠ some .directory
  entries : changed.entries = put location entry fs.entries
  refusals : changed.refusals = fs.refusals
  current : changed.current = fs.current

/-- An insertion that succeeds has put its entry, and nothing else is different. -/
theorem inserted_of_insert? (inserted : fs.insert? location entry = some changed) :
    Inserted fs location entry changed := by
  unfold insert? at inserted
  split at inserted
  · rename_i allowed
    cases inserted
    have holds := allowed.1
    simp only [canHold, Bool.and_eq_true, decide_eq_true_eq] at holds
    exact ⟨holds.1.1, allowed.2, rfl, rfl, rfl⟩
  · cases inserted

/-- A file is put where no directory stands. -/
theorem not_directory_of_insert? {content : ByteArray}
    (inserted : fs.insert? location (.file content) = some changed) :
    fs.entry? location ≠ some .directory :=
  (inserted_of_insert? inserted).allowed.resolve_left fun isDirectory => by cases isDirectory

/-- After an insertion the new entry stands at its location, and all else is as it was. -/
theorem entry?_insert? (inserted : fs.insert? location entry = some changed) (other : Location) :
    changed.entry? other = if other = location then some entry else fs.entry? other := by
  obtain ⟨filled, _, entries, _, _⟩ := inserted_of_insert? inserted
  unfold entry?
  by_cases atRoot : other = []
  · have apart : other ≠ location := fun same => filled (same ▸ atRoot)
    rw [if_pos atRoot, if_neg apart, if_pos atRoot]
  · rw [if_neg atRoot, entries, find?_put, if_neg atRoot]

/-- An insertion asks for a location that can take an entry. -/
theorem canHold_of_insert? (inserted : fs.insert? location entry = some changed) :
    fs.canHold location = true := by
  unfold insert? at inserted
  split at inserted
  · rename_i allowed
    exact allowed.1
  · cases inserted

/-- A location that can take an entry can take one still where every directory has been kept. -/
theorem canHold_of_kept (held : fs.canHold location = true)
    (kept : ∀ place, fs.entry? place = some .directory → changed.entry? place = some .directory) :
    changed.canHold location = true := by
  simp only [canHold, Bool.and_eq_true, beq_iff_eq] at held ⊢
  exact ⟨held.1, kept _ held.2⟩

/-- Where an entry can be held and no directory stands, any entry can be put. -/
theorem exists_insert? (held : fs.canHold location = true) (free : fs.entry? location ≠ some .directory)
    (entry : Entry) : ∃ changed, fs.insert? location entry = some changed := by
  unfold insert?
  rw [dif_pos ⟨held, .inr free⟩]
  exact ⟨_, rfl⟩

/-- The file system that entries make when they are inserted one after the other. It is empty if one of
them has no place. -/
def ofEntries (entries : List (Location × Entry)) : FileSystem :=
  (entries.foldlM (fun (fs : FileSystem) placed => fs.insert? placed.1 placed.2) .empty).getD .empty

/-! ## Writing -/

/-- A write that succeeds is an insertion where its path leads, and the system does not refuse it. -/
theorem writeBytes_eq_ok {path : Path} {content : ByteArray}
    (written : fs.writeBytes path content = .ok changed) :
    ∃ location, fs.locate path = .ok location ∧ fs.refusals.writing location = none ∧
      fs.insert? location (.file content) = some changed := by
  unfold writeBytes at written
  obtain ⟨location, located, stored⟩ := bind_eq_ok.mp written
  refine ⟨location, located, ?_⟩
  split at stored
  · cases stored
  · cases stored
  · split at stored
    · cases stored
    · rename_i permitted inserted
      cases stored
      exact ⟨permitted, inserted⟩
    · cases stored

/-- Parts that lead somewhere lead there still where every directory has been kept. -/
theorem follow_of_kept
    (kept : ∀ place, fs.entry? place = some .directory → changed.entry? place = some .directory)
    {start : Location} {parts : List String} (followed : fs.follow start parts = .ok other) :
    changed.follow start parts = .ok other := by
  induction parts generalizing start with
  | nil => exact followed
  | cons part parts ih =>
    unfold follow at followed ⊢
    split at followed
    · rename_i directory
      rw [kept start directory]
      exact ih followed
    · cases followed
    · cases followed

/-- A path that leads somewhere leads there still where every directory has been kept. -/
theorem locate_of_kept
    (kept : ∀ place, fs.entry? place = some .directory → changed.entry? place = some .directory)
    (sameCurrent : changed.current = fs.current) {path : Path}
    (located : fs.locate path = .ok other) : changed.locate path = .ok other := by
  unfold locate at located ⊢
  split at located
  · cases located
  · rename_i filled
    rw [if_neg filled, sameCurrent]
    exact follow_of_kept kept located

/-- A file does not take the place of a directory. -/
theorem directory_insert? {content : ByteArray}
    (inserted : fs.insert? location (.file content) = some changed)
    (directory : fs.entry? other = some .directory) : changed.entry? other = some .directory := by
  have apart : other ≠ location := by
    rintro rfl
    exact not_directory_of_insert? inserted directory
  rw [entry?_insert? inserted, if_neg apart, directory]

/-- The directories are the same when a file has been put. -/
theorem directory_insert?_iff {content : ByteArray}
    (inserted : fs.insert? location (.file content) = some changed) (other : Location) :
    changed.entry? other = some .directory ↔ fs.entry? other = some .directory := by
  refine ⟨fun directory => ?_, directory_insert? inserted⟩
  rw [entry?_insert? inserted] at directory
  split at directory
  · cases directory
  · exact directory

/-- A path that leads somewhere leads there still when a file has been put, since the directories on
its way are still there. -/
theorem locate_insert? {content : ByteArray} {path : Path}
    (inserted : fs.insert? location (.file content) = some changed)
    (located : fs.locate path = .ok other) : changed.locate path = .ok other :=
  locate_of_kept (fun _ directory => directory_insert? inserted directory)
    (inserted_of_insert? inserted).current located

/-! ## Reading -/

/-- A path is read where it leads. -/
theorem readText_of_locate {path : Path} (located : fs.locate path = .ok location) :
    fs.readText path = fs.contentAt location >>= decode := by
  unfold readText readBytes
  rw [located]
  rfl

/-- A file gives its bytes unless the system refuses to read them. -/
theorem contentAt_of_file {content : ByteArray} (found : fs.entry? location = some (.file content)) :
    fs.contentAt location = (fs.refusals.reading location).elim (.ok content) .error := by
  unfold contentAt
  rw [found]
  cases fs.refusals.reading location <;> rfl

/-- A file cannot be read exactly where the system refuses it. -/
theorem readBytes_eq_error {path : Path} {content : ByteArray} {cause : AccessError}
    (located : fs.locate path = .ok location) (found : fs.entry? location = some (.file content)) :
    fs.readBytes path = .error cause ↔ fs.refusals.reading location = some cause := by
  have bytes : fs.readBytes path = fs.contentAt location := by
    rw [readBytes, located]
    rfl
  rw [bytes, contentAt_of_file found]
  cases fs.refusals.reading location <;> simp

private theorem decode_eq_ok {content : ByteArray} {text : String} :
    decode content = .ok text ↔ String.fromUTF8? content = some text := by
  unfold decode
  cases String.fromUTF8? content <;> simp

private theorem decode_eq_error {content : ByteArray} {cause : AccessError} :
    decode content = .error cause ↔ String.fromUTF8? content = none ∧ cause = .notText := by
  unfold decode
  cases String.fromUTF8? content <;> simp [eq_comm]

/-- A text is read if there are bytes to be read and they are a text. -/
theorem readText_eq_ok {path : Path} {text : String} : fs.readText path = .ok text ↔
    ∃ content, fs.readBytes path = .ok content ∧ String.fromUTF8? content = some text := by
  simp only [readText, bind_eq_ok, decode_eq_ok]

/-- No text is read if there are no bytes to be read or they are no text. -/
theorem readText_eq_error {path : Path} {cause : AccessError} : fs.readText path = .error cause ↔
    fs.readBytes path = .error cause ∨
      ∃ content, fs.readBytes path = .ok content ∧ String.fromUTF8? content = none ∧ cause = .notText := by
  simp only [readText, bind_eq_error, decode_eq_error]

private theorem decode_toUTF8 (text : String) : decode text.toUTF8 = .ok text := by
  have valid : String.fromUTF8? text.toUTF8 = some text := dif_pos text.isValidUTF8
  rw [decode, valid]

/-- The text of a file is read where the system does not refuse it. -/
theorem readText_of_file {path : Path} {text : String} (located : fs.locate path = .ok location)
    (found : fs.entry? location = some (.file text.toUTF8))
    (readable : fs.refusals.reading location = none) : fs.readText path = .ok text := by
  rw [readText_of_locate located, contentAt_of_file found, readable]
  exact decode_toUTF8 text

/-- What was written is read back. -/
theorem readText_of_writeText {path : Path} {text : String}
    (written : fs.writeText path text = .ok changed) : changed.readText path = .ok text := by
  obtain ⟨location, located, permitted, inserted⟩ := writeBytes_eq_ok written
  apply readText_of_file (locate_insert? inserted located)
  · rw [entry?_insert? inserted, if_pos rfl]
  · rw [(inserted_of_insert? inserted).refusals]
    exact fs.refusals.closed location permitted

end Harvest.FileSystem

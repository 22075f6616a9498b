import Harvest.Proofs.Message.FirstFault
import Harvest.Proofs.Run.PerFile
import Harvest.Proofs.Run.Schedule

/-!
# Fewer functions

Whether a call gives a message, which one, and how it fails is settled by the call and its file. The
other calls of the file do not matter to it, be they around it or inside of it. So an extraction for
fewer functions finds what the extraction for all of them finds, less the messages of the calls that
the fewer functions do not name; and a call that does not fail for all of them does not fail for fewer.
-/

namespace Harvest

open Traversal
open TypeScript (Tree)

/-! ## The calls of a project -/

/-- A call in a file. -/
structure Site where
  file : SourceFile
  call : CallSite

/-- The calls of the searched files, in the order in which they are visited. -/
def SourceSet.sites (set : SourceSet) : List Site :=
  set.searched.flatMap fun file => file.calls.map (Site.mk file)

/-- What a call gives in its project. -/
def SourceSet.outcome (set : SourceSet) (extractor : Extractor) (site : Site) :
    Except Halt (Option Message) :=
  extractor.outcome site.file (set.nameOf site.file) site.call

/-- The messages of a project are those of its calls in order, and it halts for the first call that does,
whichever files the calls are in. -/
theorem SourceSet.extract_eq_mapM_sites (set : SourceSet) (extractor : Extractor) :
    set.extract extractor =
      (fun outcomes => outcomes.flatMap Option.toList) <$> set.sites.mapM (set.outcome extractor) := by
  unfold extract sites
  rw [extractFrom_eq_mapM]
  induction set.searched with
  | nil => rfl
  | cons file files ih =>
    have first : (file.calls.map (Site.mk file)).mapM (set.outcome extractor) =
        file.calls.mapM (extractor.outcome file (set.nameOf file)) := by
      rw [List.mapM_map]
      rfl
    rw [List.mapM_cons, Extractor.extract_eq_mapM, List.flatMap_cons, List.mapM_append, first]
    cases file.calls.mapM (extractor.outcome file (set.nameOf file)) with
    | error halt => rfl
    | ok outcomes =>
      revert ih
      cases files.mapM fun file => extractor.extract file (set.nameOf file) with
      | error halt =>
        intro ih
        have failed := map_eq_error.mp ih.symm
        rw [failed]
        rfl
      | ok lists =>
        intro ih
        obtain ⟨others, traversed, given⟩ := map_eq_ok.mp ih.symm
        rw [traversed]
        show Except.ok (outcomes.flatMap Option.toList :: lists).flatten =
          Except.ok ((outcomes ++ others).flatMap Option.toList)
        rw [List.flatten_cons, List.flatMap_append, given]

/-! ## One call -/

variable {fewer more : List String} {file : SourceFile}

/-- What is named by fewer functions is named by all. -/
theorem Names.mono (included : fewer ⊆ more) {callee : Tree} (names : Names fewer file callee) :
    Names more file callee := by
  cases names with
  | own listed => exact .own (included listed)
  | imported bound here first listed => exact .imported bound here first (included listed)
  | member listed => exact .member (included listed)

private theorem Classifier.matchesCallee_mono (included : fewer ⊆ more) {callee : Tree}
    (taken : matchesCallee fewer file callee = true) : matchesCallee more file callee = true :=
  matchesCallee_iff.mpr ((matchesCallee_iff.mp taken).mono included)

/-- Fewer functions decline a call or say of it what all of them say. -/
theorem Classifier.byName_of_subset (included : fewer ⊆ more) (file : SourceFile) (call : CallSite) :
    byName fewer file call = .ok false ∨ byName fewer file call = byName more file call := by
  unfold byName
  cases call.callee with
  | none => exact .inl rfl
  | some callee =>
    cases taken : matchesCallee fewer file callee with
    | false => exact .inl (by simp [taken])
    | true =>
      have takenToo := matchesCallee_mono included taken
      exact .inr (by simp [taken, takenToo])

/-- **Step lemma.** A call that fewer functions decline gives nothing; any other gives what it gives for
all functions. -/
theorem outcome_of_subset (included : fewer ⊆ more) (file : SourceFile) (name : String)
    (call : CallSite) :
    ((Extractor.named fewer).outcome file name call = .ok none ∧
      (Extractor.named fewer).accepts file call = false) ∨
    ((Extractor.named fewer).outcome file name call = (Extractor.named more).outcome file name call ∧
      (Extractor.named fewer).accepts file call = (Extractor.named more).accepts file call) := by
  rcases Classifier.byName_of_subset included file call with declined | same
  · left
    have classified : (Extractor.named fewer).classify file call = .ok false := declined
    constructor
    · unfold Extractor.outcome Extractor.message?
      rw [classified]
      rfl
    · unfold Extractor.accepts
      rw [classified]
  · right
    have classified : (Extractor.named fewer).classify file call =
        (Extractor.named more).classify file call := same
    constructor
    · unfold Extractor.outcome Extractor.message?
      rw [classified]
      rfl
    · unfold Extractor.accepts
      rw [classified]

/-! ## All calls -/

/-- The classifier for the functions takes the call for a message. -/
def Site.acceptedFor (functions : List String) (site : Site) : Bool :=
  (Extractor.named functions).accepts site.file site.call

private theorem Site.acceptedFor_mono (included : fewer ⊆ more) {site : Site}
    (accepted : site.acceptedFor fewer = true) : site.acceptedFor more = true := by
  simp only [acceptedFor, Extractor.accepts, Extractor.named] at accepted ⊢
  rcases Classifier.byName_of_subset included site.file site.call with declined | same
  · rw [declined] at accepted
    cases accepted
  · rwa [same] at accepted

/-- The accepted ones among calls, each with its message. -/
structure Pairs (set : SourceSet) (functions : List String) (sites : List Site)
    (messages : List Message) (found : List (Site × Message)) : Prop where
  calls : found.map Prod.fst = sites.filter (·.acceptedFor functions)
  messages : found.map Prod.snd = messages
  described : ∀ one ∈ found, Describes (.named functions) one.1.file (set.nameOf one.1.file)
    one.1.call one.2

/-- What is left of pairs for fewer functions. -/
def narrow (fewer : List String) (found : List (Site × Message)) : List (Site × Message) :=
  found.filter fun one => one.1.acceptedFor fewer

variable {set : SourceSet} {site : Site} {sites : List Site} {message : Message}
  {messages : List Message} {found : List (Site × Message)}

private theorem narrow_cons_of_accepted (accepted : site.acceptedFor fewer = true) :
    narrow fewer ((site, message) :: found) = (site, message) :: narrow fewer found := by
  simp [narrow, accepted]

private theorem narrow_cons_of_declined (declined : site.acceptedFor fewer = false) :
    narrow fewer ((site, message) :: found) = narrow fewer found := by
  simp [narrow, declined]

private theorem Pairs.cons_of_declined (declined : site.acceptedFor fewer = false)
    (pairs : Pairs set fewer sites messages found) : Pairs set fewer (site :: sites) messages found where
  calls := by
    rw [List.filter_cons_of_neg (by simp [declined])]
    exact pairs.calls
  messages := pairs.messages
  described := pairs.described

private theorem Pairs.cons_of_accepted (accepted : site.acceptedFor fewer = true)
    (describes : Describes (.named fewer) site.file (set.nameOf site.file) site.call message)
    (pairs : Pairs set fewer sites messages found) :
    Pairs set fewer (site :: sites) (message :: messages) ((site, message) :: found) where
  calls := by rw [List.filter_cons_of_pos accepted, List.map_cons, pairs.calls]
  messages := by rw [List.map_cons, pairs.messages]
  described := List.forall_mem_cons.mpr ⟨describes, pairs.described⟩

/-- The calls that are left are the ones that the fewer functions accept. -/
theorem Pairs.narrow (included : fewer ⊆ more) (pairs : Pairs set more sites messages found) :
    Pairs set fewer sites ((narrow fewer found).map Prod.snd) (narrow fewer found) where
  calls := by
    have left : (found.map Prod.fst).filter (·.acceptedFor fewer) =
        (Harvest.narrow fewer found).map Prod.fst := List.filter_map
    rw [← left, pairs.calls, List.filter_filter]
    apply List.filter_congr
    intro site _
    cases accepted : site.acceptedFor fewer with
    | false => rfl
    | true => rw [site.acceptedFor_mono included accepted]; rfl
  messages := rfl
  described := by
    intro one member
    -- An identifier knows nothing of the functions.
    obtain ⟨id, source, fileName, offset, meaning, description⟩ :=
      pairs.described one (List.mem_filter.mp member).1
    exact ⟨id, source, fileName, offset, meaning, description⟩

/-- **Run lemma.** Calls that do not fail for all functions do not fail for fewer, and give the messages
that are left. -/
theorem exists_pairs_of_outcomes (included : fewer ⊆ more) {outcomes : List (Option Message)}
    (given : List.Forall₂ (fun site outcome => set.outcome (.named more) site = .ok outcome)
      sites outcomes) :
    ∃ found outcomes', Pairs set more sites (outcomes.flatMap Option.toList) found ∧
      List.Forall₂ (fun site outcome => set.outcome (.named fewer) site = .ok outcome)
        sites outcomes' ∧
      outcomes'.flatMap Option.toList = (narrow fewer found).map Prod.snd := by
  induction given with
  | nil => exact ⟨[], [], ⟨rfl, rfl, List.forall_mem_nil _⟩, .nil, rfl⟩
  | @cons site outcome sites outcomes first _ ih =>
    obtain ⟨found, outcomes', pairs, others, left⟩ := ih
    have less := outcome_of_subset included site.file (set.nameOf site.file) site.call
    cases outcome with
    | none =>
      have refused : site.acceptedFor more = false := by
        simp only [Site.acceptedFor, Extractor.accepts, outcome_eq_none.mp first]
      have nothing : set.outcome (.named fewer) site = .ok none := by
        rcases less with ⟨declined, _⟩ | ⟨same, _⟩
        · exact declined
        · exact same.trans first
      exact ⟨found, none :: outcomes', pairs.cons_of_declined refused, .cons nothing others, left⟩
    | some message =>
      obtain ⟨classified, describes⟩ := outcome_eq_some.mp first
      have taken : site.acceptedFor more = true := by
        simp only [Site.acceptedFor, Extractor.accepts, classified]
      have longer := pairs.cons_of_accepted taken describes
      rcases less with ⟨nothing, refused⟩ | ⟨same, alike⟩
      · refine ⟨(site, message) :: found, none :: outcomes', longer, .cons nothing others, ?_⟩
        rw [narrow_cons_of_declined refused]
        exact left
      · refine ⟨(site, message) :: found, some message :: outcomes', longer,
          .cons (same.trans first) others, ?_⟩
        rw [narrow_cons_of_accepted (alike.trans taken), List.map_cons, ← left]
        rfl

/-- An extraction that succeeds for all functions succeeds for fewer, with the messages that are left. -/
theorem exists_pairs_of_extract (included : fewer ⊆ more)
    (extracted : set.extract (.named more) = .ok messages) :
    ∃ found, Pairs set more set.sites messages found ∧
      set.extract (.named fewer) = .ok ((narrow fewer found).map Prod.snd) := by
  rw [SourceSet.extract_eq_mapM_sites] at extracted ⊢
  obtain ⟨outcomes, traversed, rfl⟩ := map_eq_ok.mp extracted
  obtain ⟨found, outcomes', pairs, given, left⟩ :=
    exists_pairs_of_outcomes included (mapM_eq_ok.mp traversed)
  exact ⟨found, pairs, map_eq_ok.mpr ⟨outcomes', mapM_eq_ok.mpr given, left⟩⟩

/-- Lists of the same functions accept the same calls and fail for the same reasons. -/
theorem extract_eq_of_subsets (included : fewer ⊆ more) (back : more ⊆ fewer) (set : SourceSet) :
    set.extract (.named fewer) = set.extract (.named more) := by
  have sameCallee : ∀ (file : SourceFile) callee, Classifier.matchesCallee fewer file callee =
      Classifier.matchesCallee more file callee := by
    intro file callee
    rw [Bool.eq_iff_iff]
    exact ⟨Classifier.matchesCallee_mono included, Classifier.matchesCallee_mono back⟩
  have same : Classifier.byName fewer = Classifier.byName more := by
    funext file call
    simp only [Classifier.byName, sameCallee]
  rw [Extractor.named, same]
  rfl

/-- **Fewer functions find fewer messages and nothing else.** When an extraction succeeds for a list of
functions, it succeeds for every list whose functions are among them, over as many files. Pair each call
that the longer list accepts with its message: the messages for the shorter list are the ones paired
with the calls that it accepts, in the same order and with all that is in them. The order of a list and
repetitions in it do not matter, not even to a failure. -/
theorem extraction_narrows (set : SourceSet) (included : fewer ⊆ more) :
    (∀ messages fileCount,
      (set.extraction (.named more)).sequential = .ok (messages, fileCount) →
      ∃ found, Pairs set more set.sites messages found ∧
        Pairs set fewer set.sites ((narrow fewer found).map Prod.snd) (narrow fewer found) ∧
        (set.extraction (.named fewer)).sequential =
          .ok ((narrow fewer found).map Prod.snd, fileCount)) ∧
    (more ⊆ fewer →
      (set.extraction (.named fewer)).sequential = (set.extraction (.named more)).sequential) := by
  simp only [SourceSet.extraction_sequential]
  constructor
  · intro messages fileCount done
    obtain ⟨_, extracted, given⟩ := map_eq_ok.mp done
    cases given
    obtain ⟨found, pairs, narrowed⟩ := exists_pairs_of_extract included extracted
    exact ⟨found, pairs, pairs.narrow included, map_eq_ok.mpr ⟨_, narrowed, rfl⟩⟩
  · intro back
    rw [extract_eq_of_subsets included back]

/-- A file in which one function is called by its name, another by the name it is imported under, inside
of a call of the first. -/
def aliasSet : SourceSet :=
  ⟨⟨"/src"⟩, [sampleFile "import { i18n as t } from 'm'; tr(t('in'), t('note')); o?.i18n('last')"]⟩

/-- The fewer functions leave out the outer call and keep the calls inside of it. -/
theorem aliasSet_narrows :
    ["i18n"] ⊆ ["tr", "i18n", "tr"] ∧
    ∃ messages found, (aliasSet.extraction (.named ["tr", "i18n", "tr"])).sequential = .ok (messages, 1) ∧
      messages.map (·.source) = ["t('in')", "'in'", "'note'", "'last'"] ∧
      Pairs aliasSet ["tr", "i18n", "tr"] aliasSet.sites messages found ∧
      (aliasSet.extraction (.named ["i18n"])).sequential = .ok ((narrow ["i18n"] found).map Prod.snd, 1) ∧
      ((narrow ["i18n"] found).map Prod.snd).map (·.source) = ["'in'", "'note'", "'last'"] := by
  have included : ["i18n"] ⊆ ["tr", "i18n", "tr"] := by decide
  have whole : ((aliasSet.extraction (.named ["tr", "i18n", "tr"])).sequential.toOption.map fun given =>
      (given.1.map (·.source), given.2)) = some (["t('in')", "'in'", "'note'", "'last'"], 1) := by
    decide +kernel
  have less : ((aliasSet.extraction (.named ["i18n"])).sequential.toOption.map fun given =>
      given.1.map (·.source)) = some ["'in'", "'note'", "'last'"] := by
    decide +kernel
  cases done : (aliasSet.extraction (.named ["tr", "i18n", "tr"])).sequential with
  | error halt =>
    rw [done] at whole
    cases whole
  | ok given =>
    obtain ⟨messages, fileCount⟩ := given
    rw [done] at whole
    obtain ⟨sources, count⟩ := Prod.mk.inj (Option.some.inj whole)
    simp only at sources count
    subst count
    obtain ⟨found, pairs, _, narrowed⟩ := (extraction_narrows aliasSet included).1 messages 1 done
    rw [narrowed] at less
    exact ⟨included, messages, found, rfl, sources, pairs, narrowed, Option.some.inj less⟩

end Harvest

import Harvest.Proofs.Traversal

/-!
# Tasks that end in any order

A stage has a task for each of its inputs but those that it leaves out. Its tasks end in any order. A
result is stored under the number of its input. A failure is kept, be it instead of an earlier one or
not, and from then on tasks may be dropped. When no task is left, the stage gives the failure that was
kept, or else gathers the results in the order of the inputs.

What a stage can give does not depend on the order: a success is that of the tasks done one after the
other (`ends_ok_iff`), and a failure can be that of any task that fails (`ends_error_iff`). One step
preserves that the results stored so far are those of their inputs and that a kept failure is that of
a task (`Sound`); a run preserves it by induction over its steps.
-/

namespace Harvest

open Traversal

/-- Inputs, which of them are not left out, what is done for each, and what is made of the results. -/
structure Stage (α β ε ρ : Type) where
  inputs : List α
  keeps : α → Bool
  task : α → Except ε β
  gather : List β → ρ

namespace Stage

variable {α β ε ρ : Type}

/-- The tasks one after the other, up to the first that fails. -/
def sequential (stage : Stage α β ε ρ) : Except ε ρ :=
  stage.gather <$> (stage.inputs.filter stage.keeps).mapM stage.task

/-- What an input gives. One that is left out gives nothing, and cannot fail. -/
def attempt (stage : Stage α β ε ρ) (input : α) : Except ε (Option β) :=
  if stage.keeps input then some <$> stage.task input else .ok none

/-- How far a stage has come: the numbers of the inputs that are to be seen to, the results under the
numbers of theirs, and the failure that is kept. -/
structure Progress (β ε : Type) where
  pending : List Nat
  stored : Nat → Option β
  failure : Option ε

def start (stage : Stage α β ε ρ) : Progress β ε :=
  ⟨List.range stage.inputs.length, fun _ => none, none⟩

/-- The task of an input ends, or is dropped. -/
inductive Step (stage : Stage α β ε ρ) (number : Nat) : Progress β ε → Progress β ε → Prop
  | stores {now : Progress β ε} {input : α} {result : Option β} (waiting : number ∈ now.pending)
    (given : stage.inputs[number]? = some input) (done : stage.attempt input = .ok result) :
    Step stage number now
      ⟨now.pending.erase number, fun other => if other = number then result else now.stored other,
        now.failure⟩
  | fails {now : Progress β ε} {input : α} {error kept : ε} (waiting : number ∈ now.pending)
    (given : stage.inputs[number]? = some input) (failed : stage.attempt input = .error error)
    (keeps : kept = error ∨ now.failure = some kept) :
    Step stage number now ⟨now.pending.erase number, now.stored, some kept⟩
  | drops {now : Progress β ε} (waiting : number ∈ now.pending)
    (stopped : now.failure.isSome = true) :
    Step stage number now ⟨now.pending.erase number, now.stored, now.failure⟩

/-- Steps in an order. -/
inductive Runs (stage : Stage α β ε ρ) : List Nat → Progress β ε → Progress β ε → Prop
  | nil {now : Progress β ε} : Runs stage [] now now
  | cons {number : Nat} {order : List Nat} {now next last : Progress β ε}
    (first : Step stage number now next) (rest : Runs stage order next last) :
    Runs stage (number :: order) now last

/-- What a stage gives when no task is left. -/
def result (stage : Stage α β ε ρ) (last : Progress β ε) : Except ε ρ :=
  match last.failure with
  | some error => .error error
  | none => .ok (stage.gather ((List.range stage.inputs.length).filterMap last.stored))

/-- The stage can give the result when its tasks end in the order. -/
def Ends (stage : Stage α β ε ρ) (order : List Nat) (result : Except ε ρ) : Prop :=
  ∃ last, stage.Runs order stage.start last ∧ last.pending = [] ∧ stage.result last = result

variable {stage : Stage α β ε ρ} {number : Nat} {order : List Nat} {now next last : Progress β ε}

/-! ## Inputs that are left out -/

private theorem attempt_eq_error {input : α} {error : ε} :
    stage.attempt input = .error error ↔
      stage.keeps input = true ∧ stage.task input = .error error := by
  unfold attempt
  cases kept : stage.keeps input with
  | false => simp
  | true => simp [map_eq_error]

private theorem exists_attempt_eq_ok {input : α}
    (fine : stage.keeps input = true → ∃ single, stage.task input = .ok single) :
    ∃ result, stage.attempt input = .ok result := by
  unfold attempt
  split
  · next kept =>
    obtain ⟨single, done⟩ := fine kept
    exact ⟨some single, map_eq_ok.mpr ⟨single, done, rfl⟩⟩
  · exact ⟨none, rfl⟩

/-- The tasks one after the other give what the inputs give, without those that are left out. -/
theorem mapM_attempt (stage : Stage α β ε ρ) (inputs : List α) :
    List.filterMap id <$> inputs.mapM stage.attempt =
      (inputs.filter stage.keeps).mapM stage.task := by
  induction inputs with
  | nil => rfl
  | cons input inputs ih =>
    rw [List.mapM_cons, attempt]
    cases kept : stage.keeps input with
    | false =>
      rw [List.filter_cons_of_neg (by simp [kept]), ← ih]
      cases inputs.mapM stage.attempt <;> rfl
    | true =>
      rw [List.filter_cons_of_pos kept, List.mapM_cons, ← ih]
      cases stage.task input with
      | error error => rfl
      | ok result => cases inputs.mapM stage.attempt <;> rfl

/-! ## Orders -/

private theorem Step.pending (step : stage.Step number now next) :
    number ∈ now.pending ∧ next.pending = now.pending.erase number := by
  cases step with
  | stores waiting => exact ⟨waiting, rfl⟩
  | fails waiting => exact ⟨waiting, rfl⟩
  | drops waiting => exact ⟨waiting, rfl⟩

/-- The first step of an order leaves the rest of the order. -/
theorem Step.perm_of_cons (step : stage.Step number now next)
    (waiting : now.pending.Perm (number :: order)) : next.pending.Perm order := by
  have erased := waiting.erase number
  rwa [List.erase_cons_head, ← step.pending.2] at erased

/-- Each task that was left ends once or is still left. -/
theorem Runs.perm (runs : stage.Runs order now last) : now.pending.Perm (order ++ last.pending) := by
  induction runs with
  | nil => exact .refl _
  | cons first rest ih =>
    obtain ⟨waiting, erased⟩ := first.pending
    rw [erased] at ih
    exact (List.perm_cons_erase waiting).trans (ih.cons _)

private theorem Runs.perm_range (runs : stage.Runs order stage.start last) (finished : last.pending = []) :
    order.Perm (List.range stage.inputs.length) := by
  have perm := runs.perm.symm
  rwa [finished, List.append_nil] at perm

private theorem exists_stores {input : α} {result : Option β} (waiting : number ∈ now.pending)
    (given : stage.inputs[number]? = some input) (done : stage.attempt input = .ok result) :
    ∃ next, stage.Step number now next ∧ next.failure = now.failure :=
  ⟨_, .stores waiting given done, rfl⟩

/-! ## What is stored -/

/-- A kept failure is that of a task. As long as there is none, what is stored under the number of an
input is what the input gives, unless its task is still to end. -/
structure Sound (stage : Stage α β ε ρ) (now : Progress β ε) : Prop where
  failed : ∀ error, now.failure = some error →
    ∃ input ∈ stage.inputs, stage.attempt input = .error error
  settled : now.failure = none → ∀ number input, stage.inputs[number]? = some input →
    number ∉ now.pending → stage.attempt input = .ok (now.stored number)

private theorem sound_start (stage : Stage α β ε ρ) : stage.Sound stage.start where
  failed := nofun
  settled _ number input given notWaiting := by
    obtain ⟨bound, _⟩ := List.getElem?_eq_some_iff.mp given
    exact absurd (List.mem_range.mpr bound) notWaiting

private theorem Sound.step (sound : stage.Sound now) (step : stage.Step number now next) :
    stage.Sound next := by
  cases step with
  | stores waiting given done =>
    refine ⟨sound.failed, fun running other input givenOther notWaiting => ?_⟩
    by_cases same : other = number
    · subst same
      rw [given] at givenOther
      cases givenOther
      simp only [if_true, done]
    · have settledBefore := sound.settled running other input givenOther fun waitingOther =>
        notWaiting ((List.mem_erase_of_ne same).mpr waitingOther)
      simp only [if_neg same, settledBefore]
  | fails waiting given failed keeps =>
    refine ⟨fun error kept => ?_, nofun⟩
    cases kept
    obtain rfl | earlier := keeps
    · exact ⟨_, List.mem_of_getElem? given, failed⟩
    · exact sound.failed _ earlier
  | drops waiting stopped =>
    refine ⟨sound.failed, fun running => ?_⟩
    rw [running] at stopped
    cases stopped

private theorem Sound.runs (sound : stage.Sound now) (runs : stage.Runs order now last) :
    stage.Sound last := by
  induction runs with
  | nil => exact sound
  | cons first rest ih => exact ih (sound.step first)

/-- When nothing is left and nothing has failed, everything is stored. -/
theorem Sound.mapM_attempt (sound : stage.Sound last) (finished : last.pending = [])
    (running : last.failure = none) :
    stage.inputs.mapM stage.attempt =
      .ok ((List.range stage.inputs.length).map last.stored) := by
  refine mapM_eq_ok.mpr (List.forall₂_iff_get.mpr ⟨by simp, fun i bound _ => ?_⟩)
  have stored := sound.settled running i stage.inputs[i] (List.getElem?_eq_getElem bound) (by
    rw [finished]
    exact List.not_mem_nil)
  simpa using stored

/-- A run that ends without a failure gives what the tasks give one after the other. -/
theorem Runs.sequential_eq (runs : stage.Runs order stage.start last)
    (finished : last.pending = []) (running : last.failure = none) :
    stage.sequential = stage.result last := by
  have stored := ((sound_start stage).runs runs).mapM_attempt finished running
  rw [sequential, ← mapM_attempt, stored, result, running]
  simp only [Functor.map, Except.map, List.filterMap_map]
  rfl

/-! ## What a stage can give -/

private theorem exists_sequential_eq_ok (stage : Stage α β ε ρ) :
    (∃ value, stage.sequential = .ok value) ↔
      ∀ input ∈ stage.inputs, stage.keeps input = true → ∃ result, stage.task input = .ok result := by
  simp only [sequential, map_eq_ok]
  constructor
  · rintro ⟨_, results, done, _⟩ input mem kept
    exact exists_mapM_eq_ok.mp ⟨results, done⟩ input (List.mem_filter.mpr ⟨mem, kept⟩)
  · intro fine
    obtain ⟨results, done⟩ := exists_mapM_eq_ok.mpr fun input mem =>
      fine input (List.mem_filter.mp mem).1 (List.mem_filter.mp mem).2
    exact ⟨_, results, done, rfl⟩

/-- Tasks of which none fails can end in any order. -/
theorem exists_runs_of_ok (order : List Nat) (now : Progress β ε) (waiting : now.pending.Perm order)
    (fine : ∀ number ∈ order, ∃ input result, stage.inputs[number]? = some input ∧
      stage.attempt input = .ok result) :
    ∃ last, stage.Runs order now last ∧ last.pending = [] ∧ last.failure = now.failure := by
  induction order generalizing now with
  | nil => exact ⟨now, .nil, waiting.eq_nil, rfl⟩
  | cons number order ih =>
    obtain ⟨⟨input, result, given, done⟩, others⟩ := List.forall_mem_cons.mp fine
    have mem := waiting.mem_iff.mpr List.mem_cons_self
    obtain ⟨next, first, unchanged⟩ := exists_stores mem given done
    obtain ⟨last, rest, finished, failure⟩ := ih next (first.perm_of_cons waiting) others
    exact ⟨last, .cons first rest, finished, failure.trans unchanged⟩

/-- The failure is the one that is kept, or that of a task which is still to end. -/
def CanKeep (stage : Stage α β ε ρ) (error : ε) (order : List Nat) (now : Progress β ε) : Prop :=
  now.failure = some error ∨ ∃ number ∈ order, ∃ input,
    stage.inputs[number]? = some input ∧ stage.attempt input = .error error

/-- The next task can end so that a failure which could be kept still can. -/
theorem CanKeep.exists_step {error : ε} (can : stage.CanKeep error (number :: order) now)
    (mem : number ∈ now.pending) (bound : number < stage.inputs.length) :
    ∃ next, stage.Step number now next ∧ stage.CanKeep error order next := by
  have given := List.getElem?_eq_getElem bound
  cases outcome : stage.attempt stage.inputs[number] with
  | ok result =>
    obtain ⟨next, step, unchanged⟩ := exists_stores mem given outcome
    refine ⟨next, step, ?_⟩
    obtain kept | ⟨failing, memFailing, input, givenFailing, failed⟩ := can
    · exact .inl (unchanged.trans kept)
    · obtain rfl | later := List.mem_cons.mp memFailing
      · -- a task that ends well is not the one that fails
        rw [given] at givenFailing
        cases givenFailing
        rw [outcome] at failed
        cases failed
      · exact .inr ⟨failing, later, input, givenFailing, failed⟩
  | error other =>
    obtain kept | ⟨failing, memFailing, input, givenFailing, failed⟩ := can
    · exact ⟨_, .fails mem given outcome (.inr kept), .inl rfl⟩
    · refine ⟨_, .fails mem given outcome (.inl rfl), ?_⟩
      obtain rfl | later := List.mem_cons.mp memFailing
      · rw [given] at givenFailing
        cases givenFailing
        rw [outcome] at failed
        cases failed
        exact .inl rfl
      · exact .inr ⟨failing, later, input, givenFailing, failed⟩

/-- Tasks can end in any order, and the failure of any of them can be the one that is kept. -/
theorem CanKeep.exists_runs {error : ε} (can : stage.CanKeep error order now)
    (waiting : now.pending.Perm order) (inside : ∀ number ∈ order, number < stage.inputs.length) :
    ∃ last, stage.Runs order now last ∧ last.pending = [] ∧ last.failure = some error := by
  induction order generalizing now with
  | nil =>
    obtain kept | ⟨_, impossible, _⟩ := can
    · exact ⟨now, .nil, waiting.eq_nil, kept⟩
    · cases impossible
  | cons number order ih =>
    obtain ⟨bound, insideRest⟩ := List.forall_mem_cons.mp inside
    have mem := waiting.mem_iff.mpr List.mem_cons_self
    obtain ⟨next, first, still⟩ := can.exists_step mem bound
    obtain ⟨last, rest, finished, kept⟩ := ih still (first.perm_of_cons waiting) insideRest
    exact ⟨last, .cons first rest, finished, kept⟩

/-- In whatever order the tasks end, a success is that of the tasks one after the other. -/
theorem ends_ok_iff {value : ρ} :
    stage.Ends order (.ok value) ↔
      order.Perm (List.range stage.inputs.length) ∧ stage.sequential = .ok value := by
  constructor
  · rintro ⟨last, runs, finished, gives⟩
    have running : last.failure = none := by
      cases failure : last.failure with
      | none => rfl
      | some error =>
        rw [result, failure] at gives
        cases gives
    exact ⟨runs.perm_range finished, (runs.sequential_eq finished running).trans gives⟩
  · rintro ⟨perm, succeeds⟩
    have fine := stage.exists_sequential_eq_ok.mp ⟨value, succeeds⟩
    have each : ∀ number ∈ order, ∃ input result, stage.inputs[number]? = some input ∧
        stage.attempt input = .ok result := by
      intro number mem
      have bound : number < stage.inputs.length := List.mem_range.mp (perm.mem_iff.mp mem)
      obtain ⟨result, done⟩ := exists_attempt_eq_ok (fine _ (List.getElem_mem bound))
      exact ⟨_, result, List.getElem?_eq_getElem bound, done⟩
    obtain ⟨last, runs, finished, running⟩ := exists_runs_of_ok order stage.start perm.symm each
    exact ⟨last, runs, finished, (runs.sequential_eq finished running).symm.trans succeeds⟩

/-- In whatever order the tasks end, a failure is that of a task, and each can be the one. -/
theorem ends_error_iff {error : ε} :
    stage.Ends order (.error error) ↔
      order.Perm (List.range stage.inputs.length) ∧
        ∃ input ∈ stage.inputs, stage.keeps input = true ∧ stage.task input = .error error := by
  simp only [← attempt_eq_error]
  constructor
  · rintro ⟨last, runs, finished, gives⟩
    refine ⟨runs.perm_range finished, ?_⟩
    apply ((sound_start stage).runs runs).failed
    cases failure : last.failure with
    | none =>
      rw [result, failure] at gives
      cases gives
    | some other =>
      rw [result, failure] at gives
      cases gives
      rfl
  · rintro ⟨perm, input, mem, failed⟩
    obtain ⟨failing, bound, given⟩ := List.getElem_of_mem mem
    have can : stage.CanKeep error order stage.start :=
      .inr ⟨failing, perm.mem_iff.mpr (List.mem_range.mpr bound), input,
        by rw [List.getElem?_eq_getElem bound, given], failed⟩
    obtain ⟨last, runs, finished, failure⟩ := can.exists_runs perm.symm fun number memOrder =>
      List.mem_range.mp (perm.mem_iff.mp memOrder)
    exact ⟨last, runs, finished, by rw [result, failure]⟩

/-- In every order the stage can give what the tasks give one after the other. -/
theorem ends_sequential (perm : order.Perm (List.range stage.inputs.length)) :
    stage.Ends order stage.sequential := by
  cases outcome : stage.sequential with
  | ok value => exact ends_ok_iff.mpr ⟨perm, outcome⟩
  | error error =>
    obtain ⟨before, input, after, split, _, failed⟩ := mapM_eq_error.mp (map_eq_error.mp outcome)
    have mem : input ∈ stage.inputs.filter stage.keeps := by
      rw [split]
      exact List.mem_append_right before List.mem_cons_self
    obtain ⟨given, kept⟩ := List.mem_filter.mp mem
    exact ends_error_iff.mpr ⟨perm, input, given, kept, failed⟩

/-- A stage that fails in some order also fails when its tasks are done one after the other. -/
theorem Ends.sequential_eq_error {error : ε} (ends : stage.Ends order (.error error)) :
    ∃ first, stage.sequential = .error first := by
  obtain ⟨_, input, mem, kept, failed⟩ := ends_error_iff.mp ends
  cases outcome : stage.sequential with
  | error first => exact ⟨first, rfl⟩
  | ok value =>
    obtain ⟨result, done⟩ := stage.exists_sequential_eq_ok.mp ⟨value, outcome⟩ input mem kept
    rw [failed] at done
    cases done

/-- Whether a stage succeeds, and with what, is the same in every order. -/
structure OrderFree (stage : Stage α β ε ρ) : Prop where
  /-- The tasks can end in every order, each once. -/
  orders : ∀ order, (∃ result, stage.Ends order result) ↔
    order.Perm (List.range stage.inputs.length)
  /-- Whatever the order, the stage succeeds exactly when each of its tasks does. -/
  succeeds : ∀ order result, stage.Ends order result → ((∃ value, result = .ok value) ↔
    ∀ input ∈ stage.inputs, stage.keeps input = true → ∃ single, stage.task input = .ok single)
  /-- A success is that of the tasks one after the other. -/
  agrees : ∀ order value, stage.Ends order (.ok value) → stage.sequential = .ok value
  /-- A failure is that of a task. -/
  reports : ∀ order error, stage.Ends order (.error error) →
    ∃ input ∈ stage.inputs, stage.keeps input = true ∧ stage.task input = .error error

/-- No stage depends on the order in which its tasks run. -/
theorem orderFree (stage : Stage α β ε ρ) : stage.OrderFree where
  orders order := by
    refine ⟨?_, fun perm => ⟨_, ends_sequential perm⟩⟩
    rintro ⟨value | error, ends⟩
    · exact (ends_error_iff.mp ends).1
    · exact (ends_ok_iff.mp ends).1
  succeeds order result ends := by
    rw [← stage.exists_sequential_eq_ok]
    cases result with
    | ok value => exact iff_of_true ⟨value, rfl⟩ ⟨value, (ends_ok_iff.mp ends).2⟩
    | error error =>
      obtain ⟨first, failed⟩ := ends.sequential_eq_error
      rw [failed]
      exact iff_of_false nofun nofun
  agrees _ _ ends := (ends_ok_iff.mp ends).2
  reports _ _ ends := (ends_error_iff.mp ends).2

end Stage

end Harvest

import Mathlib.Data.List.Forall2

/-!
# Traversals that may fail

A project is loaded, and its messages are extracted, one element of a list after the other; the first
failure ends the traversal. The laws here say of any such traversal when it succeeds, with which
results, and which failure it reports otherwise. Later modules read `List.mapM` through them and do
not unfold it.
-/

namespace Harvest.Traversal

variable {α β γ ε : Type}

/-- Two steps succeed when both do. -/
theorem bind_eq_ok {x : Except ε α} {f : α → Except ε β} {b : β} :
    (x >>= f) = .ok b ↔ ∃ a, x = .ok a ∧ f a = .ok b := by
  cases x with
  | error e => exact ⟨nofun, fun ⟨_, h, _⟩ => nomatch h⟩
  | ok a => exact ⟨fun h => ⟨a, rfl, h⟩, fun ⟨_, h, hf⟩ => by cases h; exact hf⟩

/-- Two steps fail where the first one does, or else where the second one does. -/
theorem bind_eq_error {x : Except ε α} {f : α → Except ε β} {e : ε} :
    (x >>= f) = .error e ↔ x = .error e ∨ ∃ a, x = .ok a ∧ f a = .error e := by
  cases x with
  | error e' =>
    constructor
    · intro h
      cases h
      exact .inl rfl
    · rintro (h | ⟨_, h, _⟩) <;> cases h
      rfl
  | ok a =>
    constructor
    · exact fun h => .inr ⟨a, rfl, h⟩
    · rintro (h | ⟨_, h, hf⟩)
      · cases h
      · cases h
        exact hf

/-- A mapped result succeeds when the result does. -/
theorem map_eq_ok {x : Except ε α} {f : α → β} {b : β} :
    f <$> x = .ok b ↔ ∃ a, x = .ok a ∧ f a = b := by
  cases x with
  | error e => exact ⟨nofun, fun ⟨_, h, _⟩ => nomatch h⟩
  | ok a => exact ⟨fun h => ⟨a, rfl, by cases h; rfl⟩, fun ⟨_, h, hf⟩ => by cases h; cases hf; rfl⟩

/-- Mapping a result keeps its error. -/
theorem map_eq_error {x : Except ε α} {f : α → β} {e : ε} :
    f <$> x = .error e ↔ x = .error e := by
  cases x with
  | error e' => exact ⟨fun h => by cases h; rfl, fun h => by cases h; rfl⟩
  | ok a => exact ⟨nofun, nofun⟩

/-- A mapped error comes from an error. -/
theorem mapError_eq_error {ε' : Type} {x : Except ε α} {f : ε → ε'} {e : ε'} :
    x.mapError f = .error e ↔ ∃ cause, x = .error cause ∧ f cause = e := by
  cases x <;> simp [Except.mapError]

/-- Mapping errors keeps a success. -/
theorem mapError_eq_ok {ε' : Type} {x : Except ε α} {f : ε → ε'} {a : α} :
    x.mapError f = .ok a ↔ x = .ok a := by
  cases x <;> simp [Except.mapError]

/-- A traversal succeeds exactly when every element does, and lists the results in order. -/
theorem mapM_eq_ok {f : α → Except ε β} {xs : List α} {ys : List β} :
    xs.mapM f = .ok ys ↔ List.Forall₂ (fun x y => f x = .ok y) xs ys := by
  induction xs generalizing ys with
  | nil =>
    rw [List.mapM_nil, List.forall₂_nil_left_iff]
    exact ⟨fun h => by cases h; rfl, fun h => by cases h; rfl⟩
  | cons x xs ih =>
    rw [List.mapM_cons, List.forall₂_cons_left_iff]
    constructor
    · intro done
      obtain ⟨y, first, rest⟩ := bind_eq_ok.mp done
      obtain ⟨ys, others, equal⟩ := bind_eq_ok.mp rest
      cases equal
      exact ⟨y, ys, first, ih.mp others, rfl⟩
    · rintro ⟨y, ys, first, others, rfl⟩
      exact bind_eq_ok.mpr ⟨y, first, bind_eq_ok.mpr ⟨ys, ih.mpr others, rfl⟩⟩

/-- A traversal fails with the failure of the first element that fails. -/
theorem mapM_eq_error {f : α → Except ε β} {xs : List α} {e : ε} :
    xs.mapM f = .error e ↔ ∃ before x after, xs = before ++ x :: after ∧
      (∀ a ∈ before, ∃ b, f a = .ok b) ∧ f x = .error e := by
  induction xs with
  | nil => exact ⟨nofun, fun ⟨before, _, _, h, _⟩ => by cases before <;> cases h⟩
  | cons x xs ih =>
    rw [List.mapM_cons]
    constructor
    · intro failed
      rcases bind_eq_error.mp failed with first | ⟨y, first, rest⟩
      · exact ⟨[], x, xs, rfl, nofun, first⟩
      · rcases bind_eq_error.mp rest with later | ⟨_, _, impossible⟩
        · obtain ⟨before, a, after, rfl, fine, fails⟩ := ih.mp later
          exact ⟨x :: before, a, after, rfl, List.forall_mem_cons.mpr ⟨⟨y, first⟩, fine⟩, fails⟩
        · cases impossible
    · rintro ⟨before, a, after, equal, fine, fails⟩
      cases before with
      | nil =>
        cases equal
        exact bind_eq_error.mpr (.inl fails)
      | cons b before =>
        cases equal
        obtain ⟨⟨y, first⟩, others⟩ := List.forall_mem_cons.mp fine
        have later := ih.mpr ⟨before, a, after, rfl, others, fails⟩
        exact bind_eq_error.mpr (.inr ⟨y, first, bind_eq_error.mpr (.inl later)⟩)

/-- Traversals that treat each element of a list alike are the same. -/
theorem mapM_congr {f g : α → Except ε β} {xs : List α} (same : ∀ x ∈ xs, f x = g x) :
    xs.mapM f = xs.mapM g := by
  induction xs with
  | nil => rfl
  | cons x xs ih =>
    obtain ⟨first, rest⟩ := List.forall_mem_cons.mp same
    rw [List.mapM_cons, List.mapM_cons, first, ih rest]

/-- A traversal succeeds exactly when no element fails. -/
theorem exists_mapM_eq_ok {f : α → Except ε β} {xs : List α} :
    (∃ ys, xs.mapM f = .ok ys) ↔ ∀ x ∈ xs, ∃ y, f x = .ok y := by
  constructor
  · rintro ⟨ys, done⟩
    have paired := mapM_eq_ok.mp done
    clear done
    induction paired with
    | nil => exact nofun
    | cons first _ ih => exact List.forall_mem_cons.mpr ⟨⟨_, first⟩, ih⟩
  · intro fine
    cases outcome : xs.mapM f with
    | ok ys => exact ⟨ys, rfl⟩
    | error e =>
      obtain ⟨before, x, after, rfl, _, fails⟩ := mapM_eq_error.mp outcome
      obtain ⟨y, found⟩ := fine x (by simp)
      rw [fails] at found
      cases found

/-- A traversal of the elements that are kept gives what the whole traversal gives of them. -/
theorem flatten_mapM_filter {f : α → Except ε (List β)} {keeps : α → Bool}
    {keepsToo : β → Bool} {xs : List α} {lists : List (List β)} (done : xs.mapM f = .ok lists)
    (agree : ∀ x list, f x = .ok list → ∀ y ∈ list, keepsToo y = keeps x) :
    List.flatten <$> (xs.filter keeps).mapM f = .ok (lists.flatten.filter keepsToo) := by
  have paired := mapM_eq_ok.mp done
  clear done
  induction paired with
  | nil => rfl
  | @cons x list xs lists first _ ih =>
    obtain ⟨kept, others, left⟩ := map_eq_ok.mp ih
    rw [List.flatten_cons, List.filter_append, ← left]
    cases keep : keeps x with
    | true =>
      have all : list.filter keepsToo = list := by
        apply List.filter_eq_self.mpr
        intro y member
        rw [agree x list first y member, keep]
      rw [List.filter_cons_of_pos keep, List.mapM_cons, first, others, all]
      rfl
    | false =>
      have none : list.filter keepsToo = [] := by
        apply List.filter_eq_nil_iff.mpr
        intro y member
        rw [agree x list first y member, keep]
        exact Bool.false_ne_true
      rw [List.filter_cons_of_neg (by simp [keep]), others, none]
      rfl

/-- Each element of a list has a partner in the list that it is paired with. -/
theorem exists_partner {R : α → β → Prop} {xs : List α} {ys : List β} (paired : List.Forall₂ R xs ys)
    {y : β} (member : y ∈ ys) : ∃ x ∈ xs, R x y := by
  induction paired with
  | nil => cases member
  | cons related _ ih =>
    rcases List.mem_cons.mp member with rfl | later
    · exact ⟨_, List.mem_cons_self, related⟩
    · obtain ⟨x, there, partner⟩ := ih later
      exact ⟨x, List.mem_cons_of_mem _ there, partner⟩

/-- Two lists that are paired one with the other are paired through the list between them. -/
theorem forall₂_trans {R : α → β → Prop} {S : β → γ → Prop} {xs : List α} {ys : List β} {zs : List γ}
    (first : List.Forall₂ R xs ys) (second : List.Forall₂ S ys zs) :
    List.Forall₂ (fun x z => ∃ y, R x y ∧ S y z) xs zs := by
  induction first generalizing zs with
  | nil =>
    cases second
    exact .nil
  | cons related _ ih =>
    cases second with
    | cons next rest => exact .cons ⟨_, related, next⟩ (ih rest)

end Harvest.Traversal

import Harvest.Proofs.TypeScript.Walk

/-!
# Reasoning about parsers by the places they pass

`Runs p b f Q` says what holds when a parser `f` answers: it starts at a place that lies behind `p` as
`b` says, and `Q` holds of its answer and of the place where it ends. There is one rule for each way to
put parsers together, so that the proof for a parser follows its text line by line.

What a parser answers is built from what it took. `From p a` says so of a value of any type: every tree
in `a` and every tree inside of one covers a stretch that was taken behind `p`. What is said of a parser
alone is said with `Runs` from any place on:

- `Looks f`: it stays where it is;
- `Reads f`: it may go on, and answers with what it read;
- `Takes f`: it takes at least one token;
- `Spans f`: it takes at least one token, and the tree it answers covers exactly what it took;
- `Seeks f`: it takes at least one token whenever it finds something;
- `Eats f`: it takes a token exactly when it says so.
-/

namespace Harvest.TypeScript

open Harvest.Text (Span)
open Harvest.TypeScript.Parser Place

/-! ## Values that are read behind a place -/

/-- The span is the stretch between two places behind `p`: from the token that comes next at the first
to the end of the last token taken at the second. -/
def Place.Covers (p : Place) (span : Span) : Prop :=
  ∃ a b, Walk p a ∧ Past a b ∧ span = ⟨a.current.start, b.lastStop⟩

/-- What is covered behind a place is covered behind every earlier one. -/
theorem Place.Covers.earlier {o p : Place} {span : Span} (walk : Walk o p) :
    p.Covers span → o.Covers span
  | ⟨a, b, first, past, same⟩ => ⟨a, b, walk.trans first, past, same⟩

/-- A tree and all trees in it cover stretches that were taken behind a place. Only a hole of an array
covers nothing. -/
inductive Tree.TakenFrom (p : Place) : Tree → Prop where
  | node {form : Form} {span : Span} {parts : List Tree} (covers : p.Covers span)
      (inner : ∀ part ∈ parts, TakenFrom p part) : TakenFrom p (.node form span parts)
  | hole {q : Place} (walk : Walk p q) :
      TakenFrom p (.node .hole ⟨q.current.start, q.current.start⟩ [])
  | call {span : Span} {chained : Bool} {callee : Tree} {arguments types : List Tree}
      (covers : p.Covers span) (called : TakenFrom p callee)
      (given : ∀ part ∈ arguments, TakenFrom p part) (typed : ∀ part ∈ types, TakenFrom p part) :
      TakenFrom p (.call span chained callee arguments types)

/-- What was taken behind a place was taken behind every earlier one. -/
theorem Tree.TakenFrom.earlier {o p : Place} {tree : Tree} (walk : Walk o p)
    (taken : tree.TakenFrom p) : tree.TakenFrom o := by
  induction taken with
  | node covers _ inner => exact .node (covers.earlier walk) inner
  | hole first => exact .hole (walk.trans first)
  | call covers _ _ _ called given typed => exact .call (covers.earlier walk) called given typed

/-- Values that hold what a parser read. -/
class Sited (α : Type) where
  /-- Everything in a value was taken behind a place. -/
  From : Place → α → Prop
  earlier {o p : Place} {a : α} : Walk o p → From p a → From o a

export Sited (From)

section Sites

variable {α β : Type} {p : Place}

/-- Values without trees. -/
@[reducible] def Sited.nowhere (α : Type) : Sited α := ⟨fun _ _ => True, fun _ _ => trivial⟩

instance : Sited Unit := .nowhere Unit
instance : Sited Bool := .nowhere Bool
instance : Sited Nat := .nowhere Nat
instance : Sited String := .nowhere String

instance : Sited Tree := ⟨fun p tree => tree.TakenFrom p, Tree.TakenFrom.earlier⟩

instance [Sited α] : Sited (List α) :=
  ⟨fun p list => ∀ a ∈ list, From p a, fun walk all a member => Sited.earlier walk (all a member)⟩

instance [Sited α] : Sited (Option α) :=
  ⟨fun p option => ∀ a ∈ option, From p a, fun walk all a member => Sited.earlier walk (all a member)⟩

instance [Sited α] [Sited β] : Sited (α × β) :=
  ⟨fun p pair => From p pair.1 ∧ From p pair.2,
    fun walk both => ⟨Sited.earlier walk both.1, Sited.earlier walk both.2⟩⟩

variable [Sited α] [Sited β]

/-- An empty list holds nothing that was read. -/
@[simp] theorem from_nil : From p ([] : List α) := nofun

/-- A list was read when its head and its tail were. -/
@[simp] theorem from_cons {a : α} {list : List α} : From p (a :: list) ↔ From p a ∧ From p list := by
  simp [From]

/-- A list was read when both its halves were. -/
@[simp] theorem from_append {first second : List α} :
    From p (first ++ second) ↔ From p first ∧ From p second := by
  simp [From, or_imp, forall_and]

/-- An absent value holds nothing that was read. -/
@[simp] theorem from_none : From p (none : Option α) := nofun

/-- A present value was read when it was read itself. -/
@[simp] theorem from_some {a : α} : From p (some a) ↔ From p a := by
  simp [From]

/-- A value that may be absent was read when it was read as a list. -/
@[simp] theorem from_toList {option : Option α} : From p option.toList ↔ From p option := by
  cases option <;> simp

/-- A mapped list was read when the list was and each image keeps to what its element holds. -/
theorem from_map {f : α → β} {list : List α} (all : From p list) (each : ∀ a, From p a → From p (f a)) :
    From p (list.map f) := by
  intro b member
  obtain ⟨a, inside, rfl⟩ := List.mem_map.mp member
  exact each a (all a inside)

end Sites

/-! ## The judgement -/

/-- How far a parser has come since a place. -/
inductive Progress where
  /-- It has taken nothing. -/
  | here
  /-- It has taken some tokens or none. -/
  | on
  /-- It has taken at least one token. -/
  | past
  /-- It has taken at least one token, and the last one ends at a known place. -/
  | ended (stop : Nat)

/-- The second place lies behind the first as the progress says. -/
def Progress.Since : Progress → Place → Place → Prop
  | here, p, q => q = p
  | on, p, q => Walk p q
  | past, p, q => Past p q
  | ended stop, p, q => Past p q ∧ q.lastStop = stop

/-- What is known after some more tokens. -/
@[reducible] def Progress.onward : Progress → Progress
  | here => on
  | on => on
  | past => past
  | ended _ => past

section Judgement

variable {α β : Type} {o p q r : Place} {b : Progress}

/-- Any progress is a walk. -/
theorem Progress.Since.walk : {b : Progress} → b.Since p q → Walk p q
  | .here, same => same ▸ .refl p
  | .on, walk => walk
  | .past, since => Past.walk since
  | .ended _, since => since.1.walk

/-- Progress goes on over a walk behind it. -/
theorem Progress.Since.onward (walk : Walk q r) : {b : Progress} → b.Since p q → b.onward.Since p r
  | .here, same => by subst same; exact walk
  | .on, first => Walk.trans first walk
  | .past, since => Past.onward since walk
  | .ended _, since => since.1.onward walk

/-- Progress goes on over a walk before it. -/
theorem Progress.Since.earlier (walk : Walk o p) : {b : Progress} → b.Since p q → b.onward.Since o q
  | .here, same => by subst same; exact walk
  | .on, second => Walk.trans walk second
  | .past, since => Walk.past walk since
  | .ended _, since => walk.past since.1

/-- Whenever the parser starts at a place that lies behind `p` as `b` says and answers, the answer and
the place where it ends are as `Q` says. -/
def Runs (p : Place) (b : Progress) (f : Parser α) (Q : α → Place → Prop) : Prop :=
  ∀ ⦃s : State⦄ ⦃a : α⦄ ⦃s' : State⦄,
    b.Since p s.toPlace → f s = some (a, s') → Q a s'.toPlace

/-- The answer holds only what was read since `p`. -/
def Read [Sited α] (p : Place) (a : α) (q : Place) : Prop := Walk p q ∧ From p a

/-- At least one token was taken since `p`; the answer may hold what was taken since `o`. -/
def TakenBehind [Sited α] (o p : Place) (a : α) (q : Place) : Prop := Past p q ∧ From o a

/-- At least one token was taken since `p`, and the answer holds only what was. -/
def Taken [Sited α] (p : Place) : α → Place → Prop := TakenBehind p p

/-- The tree covers exactly what was taken since `p`. -/
def SpannedBehind (o p : Place) (tree : Tree) (q : Place) : Prop :=
  TakenBehind o p tree q ∧ tree.span = ⟨p.current.start, q.lastStop⟩

/-- The tree covers exactly what was taken. -/
def Spanned (p : Place) : Tree → Place → Prop := SpannedBehind p p

/-- A tree from the next token to the last token taken covers what was taken. -/
theorem spanned_of_ended {tree : Tree} (from_tree : From p tree)
    (start : tree.span.start = p.current.start) (since : (Progress.ended tree.span.stop).Since p q) :
    Spanned p tree q :=
  ⟨⟨since.1, from_tree⟩, by rw [since.2, ← start]⟩

/-- What holds of an answer, if there is one. -/
def Found (Q : α → Place → Prop) (found : Option α) (q : Place) : Prop := ∀ a ∈ found, Q a q

/-- Some tokens may have been taken without an answer; of an answer something holds. -/
def Sought (R : α → Place → Prop) (p : Place) (found : Option α) (q : Place) : Prop :=
  (found = none → Walk p q) ∧ Found R found q

private theorem Taken.behind [Sited α] {a : α} (walk : Walk o p) (taken : Taken p a q) : TakenBehind o p a q :=
  ⟨taken.1, Sited.earlier walk taken.2⟩

/-- A walk before what was taken changes nothing. -/
theorem TakenBehind.earlier [Sited α] {a : α} (walk : Walk p q) (taken : TakenBehind o q a r) :
    TakenBehind o p a r :=
  ⟨walk.past taken.1, taken.2⟩

/-- The parser takes nothing. -/
class Looks (f : Parser α) : Prop where
  stays : ∀ p, Runs p .here f fun _ q => q = p

/-- The parser takes some tokens or none. -/
def Reads [Sited α] (f : Parser α) : Prop := ∀ p, Runs p .here f (Read p)

/-- The parser takes at least one token, or answers that it found nothing. -/
def Seeks [Sited α] (f : Parser (Option α)) : Prop := ∀ p, Runs p .here f (Sought (Taken p) p)

/-- The parser takes at least one token. -/
def Takes [Sited α] (f : Parser α) : Prop := ∀ p, Runs p .here f (Taken p)

/-- The parser answers with a tree that covers what it takes. -/
def Spans (f : Parser Tree) : Prop := ∀ p, Runs p .here f (Spanned p)

/-- The parser takes a token if and only if it answers that it does. -/
def Eats (f : Parser Bool) : Prop := ∀ p, Runs p .here f fun taken q => if taken then Past p q else q = p

private theorem bind_eq_some {f : Parser α} {k : α → Parser β} {s : State} {result : β × State} :
    (f >>= k) s = some result ↔ ∃ a s₁, f s = some (a, s₁) ∧ k a s₁ = some result := by
  change (f s).bind _ = _ ↔ _
  simp [Option.bind_eq_some_iff]

namespace Runs

variable {f g : Parser α} {k : α → Parser β} {R R' : α → Place → Prop} {Q : β → Place → Prop}

/-- Consequence: a weaker postcondition. -/
theorem mono (runs : Runs p b f R) (weaker : ∀ a q, R a q → R' a q) : Runs p b f R' :=
  fun _ _ _ since ran => weaker _ _ (runs since ran)

/-- The place is kept as a mark for what follows. -/
theorem mark (next : ∀ q, b.Since p q → Runs q .here f R) : Runs p b f R :=
  fun _ _ _ since ran => next _ since rfl ran

/-- Back to the mark before, with all that is known of it. -/
theorem back (since : b.Since p q) (next : Runs p b f R) : Runs q .here f R := by
  rintro s a s' rfl ran
  exact next since ran

/-- Back to the place where a tree starts. -/
theorem behind {tree : Tree} (spanned : Spanned p tree q)
    (next : From p tree → tree.span.start = p.current.start → Runs p (.ended tree.span.stop) f R) :
    Runs q .here f R := by
  have since : (Progress.ended tree.span.stop).Since p q := ⟨spanned.1.1, by rw [spanned.2]⟩
  exact back since (next spanned.1.2 (by rw [spanned.2]))

/-- Back to an earlier mark. -/
theorem unmark (walk : Walk o p) (next : Runs o b.onward f R) : Runs p b f R :=
  fun _ _ _ since ran => next (since.earlier walk) ran

/-- At a place behind `o`, what is known of a parser that has come past `o` applies. -/
theorem unmarkPast (past : Past o p) (next : Runs o .past f R) : Runs p b f R :=
  fun _ _ _ since ran => next (past.onward since.walk) ran

/-- Where a token ends may be forgotten. -/
theorem past {stop : Nat} (next : Runs p .past f R) : Runs p (.ended stop) f R :=
  fun _ _ _ since ran => next since.1 ran

/-! ### Sequences -/

/-- Sequence: the second parser starts where the first one ended. -/
theorem bind (first : Runs p b f R) (next : ∀ a q, R a q → Runs q .here (k a) Q) :
    Runs p b (f >>= k) Q := by
  intro s c s₂ since ran
  obtain ⟨a, s₁, answered, ran⟩ := bind_eq_some.mp ran
  exact next a _ (first since answered) rfl ran

/-- A parser that takes nothing leaves the progress as it is. -/
theorem look [Looks f] (next : ∀ a, Runs p b (k a) Q) : Runs p b (f >>= k) Q := by
  intro s c s₂ since ran
  obtain ⟨a, s₁, answered, ran⟩ := bind_eq_some.mp ran
  have same := Looks.stays _ rfl answered
  exact next a (same ▸ since) ran

/-- After a parser that reads, the progress goes on. -/
theorem read [Sited α] (first : Reads f) (next : ∀ a, From p a → Runs p b.onward (k a) Q) :
    Runs p b (f >>= k) Q := by
  intro s c s₂ since ran
  obtain ⟨a, s₁, answered, ran⟩ := bind_eq_some.mp ran
  obtain ⟨walk, taken⟩ := first _ rfl answered
  exact next a (Sited.earlier since.walk taken) (since.onward walk) ran

/-- After a parser that takes, at least one token was taken. -/
theorem take [Sited α] (first : Takes f) (next : ∀ a, From p a → Runs p .past (k a) Q) :
    Runs p b (f >>= k) Q := by
  intro s c s₂ since ran
  obtain ⟨a, s₁, answered, ran⟩ := bind_eq_some.mp ran
  obtain ⟨past, taken⟩ := first _ rfl answered
  exact next a (Sited.earlier since.walk taken) (since.walk.past past) ran

/-- After a parser that spans a tree, the last token taken ends where the tree does. -/
theorem span {f : Parser Tree} {k : Tree → Parser β} (first : Spans f)
    (next : ∀ tree, From p tree → tree.span.start = p.current.start →
      Runs p (.ended tree.span.stop) (k tree) Q) : Runs p .here (f >>= k) Q :=
  bind (first p) fun tree _ spanned => behind spanned (next tree)

/-- After a parser that may find nothing: the case where it does and the case where it does not. -/
theorem seek {f : Parser (Option α)} {k : Option α → Parser β} (first : Runs p b f (Sought R o))
    (found : ∀ a q, R a q → Runs q .here (k (some a)) Q) (none : Runs o .on (k none) Q) :
    Runs p b (f >>= k) Q := by
  refine bind first fun answer q sought => ?_
  cases answer with
  | none => exact unmark (sought.1 rfl) none
  | some a => exact found a q (sought.2 a rfl)

/-- After a parser that seeks: either at least one token was taken or the progress goes on. -/
theorem seekTake [Sited α] {f : Parser (Option α)} {k : Option α → Parser β} (first : Seeks f)
    (found : ∀ a, From p a → Runs p .past (k (some a)) Q) (none : Runs p b.onward (k none) Q) :
    Runs p b (f >>= k) Q := by
  refine mark fun q since => seek (first q) (fun a r taken => ?_) ?_
  · exact unmarkPast (since.walk.past taken.1) (found a (Sited.earlier since.walk taken.2))
  · exact mark fun r walk => back (since.onward walk) none

/-- After a parser that may eat a token, in the form of a continuation. -/
theorem eats {f : Parser Bool} {k : Bool → Parser β} (first : Eats f)
    (yes : Runs p .past (k true) Q) (no : Runs p b (k false) Q) : Runs p b (f >>= k) Q := by
  intro s c s₂ since ran
  obtain ⟨taken, s₁, answered, ran⟩ := bind_eq_some.mp ran
  have moved := first _ rfl answered
  cases taken with
  | true => exact yes (since.walk.past moved) ran
  | false => exact no ((show s₁.toPlace = s.toPlace from moved) ▸ since) ran

/-- The same for what follows in either case. -/
theorem ate {f : Parser Bool} {k : Bool → Parser β} (first : Eats f)
    (next : ∀ taken c, (taken = false → c = b) → Runs p c (k taken) Q) : Runs p b (f >>= k) Q :=
  eats first (next true _ nofun) (next false _ fun _ => rfl)

/-- After a parser that may eat a token, in the form of a conditional. -/
theorem eat {f : Parser Bool} {first second : Parser β} (eaten : Eats f)
    (yes : Runs p .past first Q) (no : Runs p b second Q) :
    Runs p b (f >>= fun taken => if taken then first else second) Q :=
  eats eaten yes no

/-- A value that is there already is handed on. -/
theorem got {a : α} (next : Runs p b (k a) Q) : Runs p b (pure a >>= k) Q := by
  rwa [pure_bind]

/-- Asking for the start of the next token. -/
theorem start {k : Nat → Parser β} (next : Runs p .here (k p.current.start) Q) :
    Runs p .here (Parser.start >>= k) Q := by
  rintro s c s₂ rfl ran
  exact next rfl ran

/-- Asking for the state. -/
theorem get {k : State → Parser β} (next : ∀ s, s.toPlace = p → Runs p .here (k s) Q) :
    Runs p .here (MonadState.get >>= k) Q := by
  rintro s c s₂ rfl ran
  exact next s rfl rfl ran

/-- Asking for the next token. -/
theorem token {k : Token → Parser β} (next : Runs p .here (k p.current.token) Q) :
    Runs p .here (Parser.token >>= k) Q := by
  rintro s c s₂ rfl ran
  exact next rfl ran

/-- Asking whether a punctuator comes next. -/
theorem isAt {x : Punctuator} {k : Bool → Parser β}
    (next : Runs p .here (k (p.current.token == .punctuator x)) Q) :
    Runs p .here (Parser.isAt x >>= k) Q := by
  rintro s c s₂ rfl ran
  exact next rfl ran

/-- A stretch of text that was read outside the token stream. -/
theorem advanceTo {rest : List Char} {pos : Nat} {k : Unit → Parser β} (step : Take p (.before rest pos))
    (next : Runs p .past (k ()) Q) : Runs p .here (Parser.advanceTo rest pos >>= k) Q := by
  rintro s c s₂ rfl ran
  obtain ⟨_, s₁, moved, ran⟩ := bind_eq_some.mp ran
  cases moved
  refine next ?_ ran
  exact step.past

/-! ### Branches -/

/-- A conditional runs as both its branches do. -/
theorem ite {c : Prop} [Decidable c] (yes : Runs p b f R) (no : Runs p b g R) :
    Runs p b (if c then f else g) R := by
  split
  · exact yes
  · exact no

/-- A parser that refuses has no answer to judge. -/
theorem refuse : Runs p b (Parser.refuse : Parser α) R := by
  intro s a s' _ ran
  change none = some (a, s') at ran
  cases ran

/-- A test that may refuse before the rest. -/
theorem check {c : Prop} [Decidable c] {f : Parser Unit} {k : Unit → Parser β} [Looks f]
    (next : Runs p b (k ()) Q) : Runs p b (if c then f >>= k else k ()) Q :=
  ite (look fun _ => next) next

/-- Tokens that were taken besides are forgotten. -/
theorem weakenPast (next : Runs p b.onward f R) : Runs p .past f R := by
  intro s a s' since ran
  cases b with
  | here | on => exact next (Past.walk since) ran
  | past | ended => exact next since ran

/-- A parser that may start further on may start here. -/
theorem weaken (next : Runs p b.onward f R) : Runs p b f R := unmark (.refl p) next

/-- Nothing is known of the progress. -/
theorem anywhere (next : Runs p .on f R) : Runs p b f R :=
  fun _ _ _ since ran => next since.walk ran

/-- Something may be read before the rest. -/
theorem maybe {c : Prop} [Decidable c] {f : Parser Unit} {k : Unit → Parser β} (reads : Reads f)
    (next : Runs p b.onward (k ()) Q) : Runs p b (if c then f >>= k else k ()) Q := by
  refine ite (read reads fun _ _ => next) (weaken next)

/-- Something is read after a token, or else something is given. -/
theorem eatOr [Sited α] {f : Parser Bool} {one : Parser α} {other : α} {k : α → Parser β}
    (eaten : Eats f) (takes : Takes one) (from_other : From p other)
    (next : ∀ a, From p a → Runs p b.onward (k a) Q) :
    Runs p b (f >>= fun taken => if taken then one >>= k else Pure.pure other >>= k) Q :=
  eat eaten (take takes fun a taken => weakenPast (next a taken)) (got (weaken (next other from_other)))

/-- Something is read where the next token shows it, or else something is given. -/
theorem atOr [Sited α] {c : Prop} [Decidable c] {one : Parser α} {other : α} {k : α → Parser β}
    (reads : Reads one) (from_other : From p other)
    (next : ∀ a, From p a → Runs p b.onward (k a) Q) :
    Runs p b (if c then one >>= k else Pure.pure other >>= k) Q :=
  ite (read reads fun a taken => next a taken) (got (weaken (next other from_other)))

/-- One or no tree after a token. -/
theorem optional {f : Parser Bool} {one : Parser Tree} {k : List Tree → Parser β} (first : Eats f)
    (takes : Takes one) (next : ∀ list, From p list → Runs p b.onward (k list) Q) :
    Runs p b (f >>= fun taken =>
      if taken then one >>= fun tree => pure [tree] >>= k else pure [] >>= k) Q := by
  refine eat first (take takes fun tree taken => got ?_) (got ?_)
  · exact weakenPast (next [tree] (by simpa using taken))
  · exact weaken (next [] from_nil)

/-- One or no tree after a look at the next token. -/
theorem optionalAt {f : Parser Bool} {one : Parser Tree} {k : List Tree → Parser β} [Looks f]
    (takes : Takes one) (next : ∀ list, From p list → Runs p b.onward (k list) Q) :
    Runs p b (f >>= fun taken =>
      if taken then one >>= fun tree => pure [tree] >>= k else pure [] >>= k) Q := by
  refine look fun _ => ite (take takes fun tree taken => got ?_) (got ?_)
  · exact weakenPast (next [tree] (by simpa using taken))
  · exact weaken (next [] from_nil)

/-- One or no tree where the next token does not end the reading. -/
theorem optionalUnless {f : Parser Bool} {one : Parser Tree} {k : List Tree → Parser β} [Looks f]
    (takes : Takes one) (next : ∀ list, From p list → Runs p b.onward (k list) Q) :
    Runs p b (f >>= fun ends =>
      if ends then pure [] >>= k else one >>= fun tree => pure [tree] >>= k) Q := by
  refine look fun _ => ite (got ?_) (take takes fun tree taken => got ?_)
  · exact weaken (next [] from_nil)
  · exact weakenPast (next [tree] (by simpa using taken))

/-- A reading that may be given up. -/
theorem attempt {f : Parser (Option α)} {k : Option α → Parser β} (tried : Runs p b f (Found R))
    (found : ∀ a q, R a q → Runs q .here (k (some a)) Q) (none : Runs p b (k none) Q) :
    Runs p b (Parser.attempt f >>= k) Q := by
  intro s c s₂ since ran
  obtain ⟨answer, s₁, answered, ran⟩ := bind_eq_some.mp ran
  simp only [Parser.attempt] at answered
  split at answered
  · rename_i a after tryout
    cases answered
    have holds : R a after.toPlace := tried (by exact since) tryout a rfl
    refine found a _ holds ?_ ran
    rfl
  · cases answered
    exact none since ran

/-- An attempt that finds nothing has taken nothing. -/
theorem attempted {f : Parser (Option α)} (tried : Runs p b f (Found R)) :
    Runs p b (Parser.attempt f) (Sought R p) := by
  intro s answer s' since ran
  simp only [Parser.attempt] at ran
  split at ran
  · rename_i a after tryout
    cases ran
    have holds : R a after.toPlace := tried (by exact since) tryout a rfl
    exact ⟨nofun, fun _ is => by cases is; exact holds⟩
  · cases ran
    exact ⟨fun _ => since.walk, nofun⟩

/-- After an attempt to take: either at least one token was taken or the progress is as before. -/
theorem attemptTake [Sited α] {f : Parser (Option α)} {k : Option α → Parser β} (seeks : Seeks f)
    (found : ∀ a, From p a → Runs p .past (k (some a)) Q) (none : Runs p b (k none) Q) :
    Runs p b (Parser.attempt f >>= k) Q := by
  refine mark fun q since => ?_
  refine attempt ((seeks q).mono fun _ _ => And.right) (fun a r taken => ?_) (back since none)
  exact unmarkPast (since.walk.past taken.1) (found a (Sited.earlier since.walk taken.2))

/-- After an attempt to span a tree: either the tree is there or the progress is as before. -/
theorem attemptSpan {f : Parser (Option Tree)} {k : Option Tree → Parser β}
    (tried : Runs p b f (Found (Spanned p)))
    (found : ∀ tree, From p tree → tree.span.start = p.current.start →
      Runs p (.ended tree.span.stop) (k (some tree)) Q)
    (none : Runs p b (k none) Q) : Runs p b (Parser.attempt f >>= k) Q :=
  attempt tried (fun tree _ spanned => behind spanned (found tree)) none

/-- A change of context does not change what is taken. -/
theorem within {change : Context → Context} (inside : Runs p b f R) :
    Runs p b (Parser.within change f) R := by
  intro s a s' since ran
  obtain ⟨outer, s₁, read, ran⟩ := bind_eq_some.mp ran
  cases read
  obtain ⟨_, s₂, changed, ran⟩ := bind_eq_some.mp ran
  cases changed
  obtain ⟨result, s₃, answered, ran⟩ := bind_eq_some.mp ran
  cases ran
  have holds : R a s₃.toPlace := inside (by exact since) answered
  exact holds

/-! ### Answers -/

/-- An answer that fits the place. -/
theorem pure {a : α} (answer : ∀ q, b.Since p q → R a q) : Runs p b (Pure.pure a) R := by
  intro s a' s' since ran
  cases ran
  exact answer _ since

/-- Something was read, maybe nothing. -/
theorem give [Sited α] {a : α} (from_a : From p a) : Runs p b (Pure.pure a) (Read p) :=
  pure fun _ since => ⟨since.walk, from_a⟩

/-- An answer after at least one token. -/
theorem taken [Sited α] {a : α} (from_a : From p a) : Runs p .past (Pure.pure a) (Taken p) :=
  pure fun _ since => ⟨since, from_a⟩

/-- The tree that was spanned last is an answer that covers what was taken. -/
theorem answer {tree : Tree} (from_tree : From p tree) (start : tree.span.start = p.current.start) :
    Runs p (.ended tree.span.stop) (Pure.pure tree) (Spanned p) :=
  pure fun _ since => spanned_of_ended from_tree start since

/-- Nothing was found behind `p`. -/
theorem unsought : Runs p b (Pure.pure none) (Sought R p) :=
  pure fun _ since => ⟨fun _ => since.walk, nofun⟩

/-- What a parser answers is found. -/
theorem sought (first : Runs p b f R) : Runs p b (f >>= fun a => Pure.pure (some a)) (Sought R o) :=
  bind first fun a q holds => pure fun q' same => by
    rw [show q' = q from same]
    exact ⟨nofun, fun a' is => by cases is; exact holds⟩

/-- The step of an extension that ends it. -/
theorem asLong {value : α} (last : Runs p b (Pure.pure value) R) :
    Runs p b (Pure.pure none) fun longer => R (longer.getD value) := by
  intro s answer s' since ran
  cases ran
  exact last since rfl

/-- The step of an extension that goes on. -/
theorem longer {value : α} (first : Runs p b f R) :
    Runs p b (f >>= fun a => Pure.pure (some a)) fun longer => R (longer.getD value) :=
  bind first fun a q holds => pure fun q' same => by rwa [show q' = q from same]

/-- Nothing was found. -/
theorem nothing : Runs p b (Pure.pure none) (Found R) := pure fun _ _ => nofun

/-- What a parser answers is found, wherever the search began. -/
theorem found (first : Runs p b f R) : Runs p b (f >>= fun a => Pure.pure (some a)) (Found R) :=
  bind first fun a q holds => pure fun q' same a' is => by
    cases is
    rwa [show q' = q from same]

/-! ### Trees -/

/-- A built tree covers what was taken since its start, with parts from before it. -/
theorem buildBehind {form : Form} {parts : List Tree} (walk : Walk o p) (inner : From o parts) :
    Runs p .past (Parser.build p.current.start form parts) (SpannedBehind o p) := by
  intro s tree s' since ran
  cases ran
  exact ⟨⟨since, .node ⟨p, _, walk, since, rfl⟩ inner⟩, rfl⟩

/-- A built tree covers what was taken since its start. -/
theorem build {form : Form} {parts : List Tree} (inner : From p parts) :
    Runs p .past (Parser.build p.current.start form parts) (Spanned p) :=
  buildBehind (.refl p) inner

/-- A built tree was taken, with parts from before its start. -/
theorem nodeBehind {form : Form} {parts : List Tree} (walk : Walk o p) (inner : From o parts) :
    Runs p .past (Parser.build p.current.start form parts) (TakenBehind o p) :=
  (buildBehind walk inner).mono fun _ _ => And.left

/-- A built tree was taken. -/
theorem node {form : Form} {parts : List Tree} (inner : From p parts) :
    Runs p .past (Parser.build p.current.start form parts) (Taken p) :=
  nodeBehind (.refl p) inner

/-- After a built tree, the last token taken ends where the tree does. -/
theorem built {form : Form} {parts : List Tree} {k : Tree → Parser β} (inner : From p parts)
    (next : ∀ tree, From p tree → tree.span.start = p.current.start →
      Runs p (.ended tree.span.stop) (k tree) Q) :
    Runs p .past (Parser.build p.current.start form parts >>= k) Q :=
  bind (build inner) fun tree _ spanned => behind spanned (next tree)

/-- After a measured span, the last token taken ends where the span does. -/
theorem spanFrom {k : Span → Parser β}
    (next : ∀ span, p.Covers span → span.start = p.current.start → Runs p (.ended span.stop) (k span) Q) :
    Runs p .past (Parser.spanFrom p.current.start >>= k) Q := by
  intro s c s₂ since ran
  exact next ⟨p.current.start, s.lastStop⟩ ⟨p, _, .refl p, since, rfl⟩ rfl ⟨since, rfl⟩ ran

end Runs

/-! ## Parsers that only look -/

namespace Looks

variable {f g : Parser α} {k : α → Parser β}

instance (a : α) : Looks (pure a : Parser α) := ⟨fun _ => .pure fun _ same => same⟩

instance [Looks f] [∀ a, Looks (k a)] : Looks (f >>= k) := ⟨fun p => .look fun _ => Looks.stays p⟩

instance {c : Prop} [Decidable c] [Looks f] [Looks g] : Looks (if c then f else g) :=
  ⟨fun p => .ite (Looks.stays p) (Looks.stays p)⟩

instance : Looks (refuse : Parser α) := ⟨fun _ => .refuse⟩

instance : Looks (get : Parser State) := ⟨fun _ _ _ _ since ran => by cases ran; exact since⟩

instance : Looks context := inferInstanceAs (Looks (do return (← get).context))
instance : Looks token := inferInstanceAs (Looks (do return (← get).current.token))
instance : Looks Parser.start := inferInstanceAs (Looks (do return (← get).current.start))
instance : Looks afterNewline := inferInstanceAs (Looks (do return (← get).current.afterNewline))
instance : Looks next := inferInstanceAs (Looks (do
  let s ← get
  return lex s.current.rest s.current.stop))

instance : Looks mistake := by unfold mistake; infer_instance
instance (condition : Bool) : Looks (mistakeIf condition) := by unfold mistakeIf; infer_instance

instance (question : Parser Bool) : Looks (ahead question) := by
  refine ⟨fun p s a s' since ran => ?_⟩
  simp only [ahead] at ran
  split at ran <;> cases ran <;> exact since

instance (place : Option Nat) : Looks (modify fun s => { s with arrowStart := place } : Parser Unit) :=
  ⟨fun _ _ _ _ since ran => by cases ran; exact since⟩

instance (x : Punctuator) : Looks (isAt x) := by unfold isAt; infer_instance
instance (name : String) : Looks (isAtWord name) := by unfold isAtWord; infer_instance

instance : Looks word? := by
  unfold word?
  refine ⟨fun p => .look fun token => ?_⟩
  split <;> exact Looks.stays p

instance : Looks isAtAnyWord := by unfold isAtAnyWord; infer_instance
instance : Looks isAtName := by unfold isAtName; infer_instance

instance : Looks isAtString := by
  unfold isAtString
  refine ⟨fun p => .look fun token => ?_⟩
  split <;> exact Looks.stays p

instance (x : Punctuator) : Looks (nextIs x) := by unfold nextIs; infer_instance
instance (name : String) : Looks (nextIsWord name) := by unfold nextIsWord; infer_instance
instance : Looks nextIsWordHere := by unfold nextIsWordHere; infer_instance
instance : Looks isAtEnd := by unfold isAtEnd; infer_instance
instance : Looks isAtSemicolon := by unfold isAtSemicolon; infer_instance

end Looks

/-! ## From one statement to another -/

section Statements

variable {f : Parser α} {R : α → Place → Prop}

/-- A parser that spans a tree takes it. -/
theorem Spans.takes {f : Parser Tree} (spans : Spans f) : Takes f :=
  fun p => (spans p).mono fun _ _ => And.left

/-- A parser that takes reads. -/
theorem Takes.reads [Sited α] (takes : Takes f) : Reads f :=
  fun p => (takes p).mono fun _ _ taken => ⟨taken.1.walk, taken.2⟩

/-- A parser that takes nothing reads, when its answers hold nothing that was read. -/
theorem Looks.reads [Sited α] {f : Parser α} [Looks f] (all : ∀ p (a : α), From p a) : Reads f :=
  fun p => (Looks.stays p).mono fun a q same => ⟨(show q = p from same) ▸ .refl p, all p a⟩

/-- What was taken behind a walk. -/
theorem Runs.behindWalk [Sited α] (walk : Walk o p) (first : Runs p b f (Taken p)) :
    Runs p b f (TakenBehind o p) :=
  first.mono fun _ _ => Taken.behind walk

/-- A spanned tree was taken. -/
theorem Runs.unspanned {f : Parser Tree} (first : Runs p b f (SpannedBehind o p)) :
    Runs p b f (TakenBehind o p) :=
  first.mono fun _ _ => And.left

/-- The last parser of a sequence. -/
theorem Takes.last [Sited α] (takes : Takes f) : Runs p b f (Taken p) := by
  intro s a s' since ran
  obtain ⟨past, taken⟩ := takes _ rfl ran
  exact ⟨since.walk.past past, Sited.earlier since.walk taken⟩

/-- A parser that reads comes last. -/
theorem Reads.last [Sited α] (reads : Reads f) : Runs p b f (Read p) := by
  intro s a s' since ran
  obtain ⟨walk, taken⟩ := reads _ rfl ran
  exact ⟨since.walk.trans walk, Sited.earlier since.walk taken⟩

/-- An attempt to seek reads. -/
theorem Seeks.attempt [Sited α] {f : Parser (Option α)} (seeks : Seeks f) :
    Reads (Parser.attempt f) := by
  refine fun p => (Runs.attempted ((seeks p).mono fun _ _ => And.right)).mono fun found q sought => ?_
  cases found with
  | none => exact ⟨sought.1 rfl, from_none⟩
  | some a => exact ⟨(sought.2 a rfl).1.walk, from_some.mpr (sought.2 a rfl).2⟩

/-- A parser that reads comes last, after at least one token. -/
theorem Reads.lastPast [Sited α] (reads : Reads f) : Runs p .past f (Taken p) := by
  intro s a s' since ran
  obtain ⟨walk, taken⟩ := reads _ rfl ran
  exact ⟨Past.onward since walk, Sited.earlier (Past.walk since) taken⟩

/-- A parser spans its tree in every context. -/
theorem Spans.within {f : Parser Tree} {change : Context → Context} (spans : Spans f) :
    Spans (Parser.within change f) := fun p => .within (spans p)

/-- A parser takes in every context. -/
theorem Takes.within [Sited α] {change : Context → Context} (takes : Takes f) :
    Takes (Parser.within change f) := fun p => .within (takes p)

/-- A parser reads in every context. -/
theorem Reads.within [Sited α] {change : Context → Context} (reads : Reads f) :
    Reads (Parser.within change f) := fun p => .within (reads p)

end Statements

/-! ## Repetition -/

section Repetition

variable [Sited α]

private theorem reads_repeatUpTo {step : Parser (Option α)} (reads : Reads step) (bound : Nat) :
    Reads (repeatUpTo bound step) := by
  induction bound with
  | zero => exact fun p => .refuse
  | succ bound ih =>
    intro p
    refine .read reads fun found from_found => ?_
    cases found with
    | none => exact .give from_nil
    | some a =>
      refine .read ih fun list from_list => ?_
      exact .give (from_cons.mpr ⟨from_some.mp from_found, from_list⟩)

/-- Repeating a parser that reads reads, by induction on the repetitions. -/
theorem reads_many {step : Parser (Option α)} (reads : Reads step) : Reads (many step) :=
  fun p => .look fun _ => reads_repeatUpTo reads _ p

/-- When each step takes a token, so does the repetition, which makes at least one. -/
theorem takes_many {step : Parser (Option α)} (takes : Takes step) : Takes (many step) := by
  intro p
  refine .look fun s => ?_
  refine .take takes fun found from_found => ?_
  cases found with
  | none => exact .taken from_nil
  | some a =>
    refine .read (reads_repeatUpTo takes.reads _) fun list from_list => ?_
    exact .taken (from_cons.mpr ⟨from_some.mp from_found, from_list⟩)

end Repetition

private theorem Runs.extendUpTo {step : α → Parser (Option α)} {I : α → Place → Prop}
    (each : ∀ value q, I value q → Runs q .here (step value) fun longer => I (longer.getD value))
    (bound : Nat) : ∀ {value : α} {q : Place}, I value q →
      Runs q .here (Parser.extendUpTo bound step value) I := by
  induction bound with
  | zero => exact fun _ => .refuse
  | succ bound ih =>
    intro value q holds
    refine .bind (each value q holds) fun longer r holds => ?_
    cases longer with
    | none => exact .pure fun r' same => by rwa [show r' = r from same]
    | some value => exact ih holds

/-- An extension keeps what each of its steps keeps. -/
theorem Runs.extend {step : α → Parser (Option α)} {I : α → Place → Prop} {value : α}
    (each : ∀ value q, I value q → Runs q .here (step value) fun longer => I (longer.getD value))
    (initial : ∀ q, b.Since p q → I value q) : Runs p b (Parser.extend step value) I :=
  .look fun _ => .mark fun q since => .extendUpTo each _ (initial q since)

/-- A tree that grows step by step covers what was taken, by induction on the steps. -/
theorem Runs.extendSpan {step : Tree → Parser (Option Tree)} {tree : Tree}
    (each : ∀ tree, From p tree → tree.span.start = p.current.start →
      Runs p (.ended tree.span.stop) (step tree) fun longer => Spanned p (longer.getD tree))
    (from_tree : From p tree) (start : tree.span.start = p.current.start) :
    Runs p (.ended tree.span.stop) (Parser.extend step tree) (Spanned p) :=
  .extend (fun tree _ spanned => .behind spanned (each tree))
    fun _ since => spanned_of_ended from_tree start since

/-! ## Tokens -/

/-- Advancing takes the next token. -/
theorem takes_advance : Takes advance := by
  rintro p s a s' rfl ran
  cases ran
  exact ⟨Take.token.past, trivial⟩

/-- A punctuator is eaten when it comes next. -/
theorem eats_eat (x : Punctuator) : Eats (eat x) := by
  refine fun p => .look fun _ => .ite ?_ ?_
  · exact .take takes_advance fun _ _ => .pure fun _ past => past
  · exact .pure fun _ same => same

/-- A word is eaten when it comes next. -/
theorem eats_eatWord (name : String) : Eats (eatWord name) := by
  refine fun p => .look fun _ => .ite ?_ ?_
  · exact .take takes_advance fun _ _ => .pure fun _ past => past
  · exact .pure fun _ same => same

/-- A parser that may eat a token reads. -/
theorem Eats.reads {f : Parser Bool} (eats : Eats f) : Reads f := by
  refine fun p => (eats p).mono fun taken q moved => ?_
  cases taken with
  | true => exact ⟨Past.walk moved, trivial⟩
  | false => exact ⟨(show q = p from moved) ▸ .refl p, trivial⟩

/-- A punctuator that has to come next is taken. -/
theorem takes_expect (x : Punctuator) : Takes (expect x) :=
  fun _ => .eat (eats_eat x) (.taken trivial) .refuse

/-- A word that has to come next is taken. -/
theorem takes_expectWord (name : String) : Takes (expectWord name) :=
  fun _ => .eat (eats_eatWord name) (.taken trivial) .refuse

/-- The end of a statement may be a semicolon or nothing. -/
theorem reads_eatSemicolon : Reads eatSemicolon :=
  fun _ => .eat (eats_eat _) (.give trivial) (Looks.reads fun _ _ => trivial).last

/-- The required end of a statement may still be nothing. -/
theorem reads_expectSemicolon : Reads expectSemicolon :=
  fun _ => .read reads_eatSemicolon fun _ _ => .ite (.give trivial) .refuse

/-- Items up to a closing punctuator. -/
theorem reads_manyUntil (close : Punctuator) [Sited α] {item : Parser α} (takes : Takes item) :
    Reads (many do
      if ← isAt close then return none
      return some (← item)) :=
  reads_many fun _ => .look fun _ =>
    .ite (.give from_none) (.take takes fun _ taken => .give (from_some.mpr taken))

/-- Items each behind a divider. -/
theorem reads_manyAfter (divider : Punctuator) [Sited α] {item : Parser α} (takes : Takes item) :
    Reads (many do
      if ← eat divider then return some (← item) else return none) :=
  reads_many fun _ =>
    .eat (eats_eat _) (.take takes fun _ taken => .give (from_some.mpr taken)) (.give from_none)

/-- Items up to a closing punctuator. -/
theorem takes_commaSeparated (close : Punctuator) {item : Parser Tree} (takes : Takes item) :
    Takes (commaSeparated close item) := by
  intro p
  refine .read (reads_many fun q => ?_) fun items from_items => ?_
  · refine .look fun _ => .ite (.give from_none) ?_
    refine .take takes fun value from_value => .look fun _ => .ite ?_ ?_
    · exact .take (takes_expect _) fun _ _ => .give (from_some.mpr from_value)
    · exact .give (from_some.mpr from_value)
  · exact .take (takes_expect _) fun _ _ => .taken from_items

end Judgement

end Harvest.TypeScript

import Mathlib.Logic.Relation
import Harvest.Proofs.TypeScript.Lexer
import Harvest.TypeScript.Parser

/-!
# How a parser moves through a text

A parser goes from place to place by taking a token, or a stretch of text that the grammar reads in its
own way: a part of a run of angle brackets, a regular expression, a stretch of a template. `Walk` is any
number of such steps and `Past` at least one.

Whatever was taken between two places stands in the text between them, from the first character of the
first token to the last character of the last one (`Past.reaches`).
-/

namespace Harvest.TypeScript

open Harvest.Text (Reaches)

namespace Place

/-- One step of a parser. -/
inductive Take (p : Place) : Place → Prop where
  | token : Take p (.before p.current.rest p.current.stop)
  /-- The first characters of an operator that is made of angle brackets and equals signs. -/
  | angles (length : Nat) (fits : length ≤ p.current.here.length)
      (brackets : ∀ c ∈ p.current.here.take length, c = '<' ∨ c = '>' ∨ c = '=') :
      Take p (.before (p.current.here.drop length) (p.current.start + length))
  | regularExpression {body rest : List Char} {validFlags : Bool} {stop : Nat}
      (here : p.current.here = '/' :: body)
      (read : TypeScript.regularExpression p.current.here p.current.start =
        some (validFlags, rest, stop)) :
      Take p (.before rest stop)
  /-- A stretch of a template behind its opening token. -/
  | chunk {chunk : TemplateChunk}
      (read : templateChunk p.current.rest 0 p.current.stop true = some chunk) :
      Take p (.before chunk.rest chunk.pos)

/-- Any number of steps. -/
def Walk (p q : Place) : Prop := Relation.ReflTransGen Take p q

/-- At least one step. -/
def Past (p q : Place) : Prop := Relation.TransGen Take p q

variable {p q r : Place}

/-- A walk may take no step. -/
theorem Walk.refl (p : Place) : Walk p p := Relation.ReflTransGen.refl

/-- Walks compose. -/
theorem Walk.trans (first : Walk p q) (second : Walk q r) : Walk p r :=
  Relation.ReflTransGen.trans first second

/-- One step is at least one. -/
theorem Take.past (step : Take p q) : Past p q := Relation.TransGen.single step

/-- At least one step is a walk. -/
theorem Past.walk (past : Past p q) : Walk p q := Relation.TransGen.to_reflTransGen past

/-- At least one step behind a walk is at least one step. -/
theorem Walk.past (first : Walk p q) (second : Past q r) : Past p r :=
  Relation.TransGen.trans_right first second

/-- At least one step before a walk is at least one step. -/
theorem Past.onward (first : Past p q) (second : Walk q r) : Past p r :=
  Relation.TransGen.trans_left first second

/-! ## What was taken stands in the text -/

/-- Between the last token and the next one there is only what the lexer skips. -/
theorem reaches_here (p : Place) :
    Reaches p.text p.lastStop p.current.here p.current.start := by
  rw [p.lexed]
  exact (lex_reaches p.text p.lastStop).1

private theorem reaches_rest (p : Place) :
    Reaches p.current.here p.current.start p.current.rest p.current.stop := by
  rw [p.lexed]
  exact (lex_reaches p.text p.lastStop).2

/-- A punctuator is what the text starts with at its token. -/
theorem opens (p : Place) {x : Punctuator} (is : p.current.token = .punctuator x) :
    x.Opens p.current.here := by
  rw [p.lexed] at is ⊢
  exact lex_opens is

/-- A step consumes the text of the token it takes. -/
theorem Take.reaches (step : Take p q) :
    Reaches p.current.here p.current.start q.text q.lastStop := by
  cases step with
  | token => exact p.reaches_rest
  | angles length fits brackets =>
    have ascii : ∀ c ∈ p.current.here.take length, c.utf8Size = 1 := fun c member => by
      obtain rfl | rfl | rfl := brackets c member <;> rfl
    have ahead := Text.reaches_of_ascii (p.current.here.drop length) p.current.start ascii
    rwa [List.take_append_drop, List.length_take, Nat.min_eq_left fits] at ahead
  | regularExpression here read =>
    rw [here] at read ⊢
    exact regularExpression_reaches read
  | chunk read => exact p.reaches_rest.trans (templateChunk_reaches read)

/-- A walk consumes the text between its places. -/
theorem Walk.reaches (walk : Walk p q) : Reaches p.text p.lastStop q.text q.lastStop := by
  induction walk with
  | refl => exact .refl _ _
  | tail _ step ih => exact ih.trans ((reaches_here _).trans step.reaches)

/-- From the first character of the first token to the last character of the last one. -/
theorem Past.reaches (past : Past p q) :
    Reaches p.current.here p.current.start q.text q.lastStop := by
  obtain ⟨middle, step, walk⟩ := Relation.TransGen.head'_iff.mp past
  exact step.reaches.trans (Walk.reaches walk)

end Place

end Harvest.TypeScript

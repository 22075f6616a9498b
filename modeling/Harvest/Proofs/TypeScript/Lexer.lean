import Harvest.Proofs.Text.Slice
import Harvest.TypeScript.Lexer

/-!
# What the readers of tokens take

Every reader walks over whole characters: the text it leaves lies ahead of the text it was given, and
the place it answers is the place of that rest. A token therefore stands in the text where its lexeme
says, and what is left of a punctuator after a part of it has been taken is still such a rest.
-/

namespace Harvest.TypeScript

open Harvest.Text (Reaches byteSize)

variable {text rest : List Char} {pos stop : Nat}

/-! ## Blanks and words -/

private theorem skipTrivia_reaches {mode : Trivia} {newline ended : Bool}
    (read : skipTrivia mode text pos newline = some (rest, stop, ended)) :
    Reaches text pos rest stop := by
  fun_induction skipTrivia mode text pos newline
  case case1 => cases read
  case case2 | case3 | case8 => cases read; exact .refl _ _
  case case4 ih | case5 ih | case11 ih => exact .consAscii rfl (.consAscii rfl (ih read))
  case case6 ih | case7 ih | case9 ih | case10 ih | case12 ih => exact .cons _ (ih read)

private theorem scanWord_reaches {skip : Nat} {reversed : List Char} {escaped : Bool} {scan : WordScan}
    (read : scanWord text skip pos reversed escaped = some scan) :
    Reaches text pos scan.rest scan.pos := by
  fun_induction scanWord text skip pos reversed escaped
  case case1 | case7 => cases read; exact .refl _ _
  case case2 ih | case6 ih => exact .cons _ (ih read)
  case case3 | case5 => cases read
  case case4 mark _ _ _ _ _ ih => exact .consBeq mark rfl (ih read)

private theorem identifier?_reaches {name : String} (read : identifier? text pos = some (name, rest, stop)) :
    Reaches text pos rest stop := by
  simp only [identifier?, Option.bind_eq_bind, Option.bind_eq_some_iff] at read
  obtain ⟨scan, scanned, first, -, read⟩ := read
  split at read
  · cases read
    exact scanWord_reaches scanned
  · cases read

/-! ## Numbers -/

private theorem utf8Size_of_le {c : Char} (low : c ≤ '\x7f') : c.utf8Size = 1 := by
  have small : c.val ≤ 127 := Char.le_def.mp low
  simp [Char.utf8Size, small]

private theorem digitRun_reaches {isDigit : Char → Bool} {afterDigit : Bool} {count total : Nat}
    (ascii : ∀ c, isDigit c = true → c.utf8Size = 1)
    (read : digitRun isDigit text afterDigit count = some (total, rest)) :
    Reaches text count rest total := by
  fun_induction digitRun isDigit text afterDigit count
  case case1 | case5 => cases read; exact .refl _ _
  case case2 digit ih => exact .consAscii (ascii _ digit) (ih read)
  case case3 mark _ ih => exact .consBeq mark rfl (ih read)
  case case4 => cases read

private theorem utf8Size_of_isDigit (c : Char) (digit : c.isDigit = true) : c.utf8Size = 1 := by
  simp only [Char.isDigit, Bool.and_eq_true, decide_eq_true_eq] at digit
  exact utf8Size_of_le (Char.le_def.mpr (UInt32.le_trans digit.2 (by decide)))

private theorem utf8Size_of_hexDigit (c : Char) (digit : (hexDigit? c).isSome = true) : c.utf8Size = 1 := by
  simp only [hexDigit?, Bool.and_eq_true, decide_eq_true_eq] at digit
  apply utf8Size_of_le
  split at digit
  · rename_i range
    exact Char.le_trans range.2 (by decide)
  split at digit
  · rename_i range
    exact Char.le_trans range.2 (by decide)
  split at digit
  · rename_i range
    exact Char.le_trans range.2 (by decide)
  · cases digit

private theorem utf8Size_of_isOctalDigit (c : Char) (digit : isOctalDigit c = true) : c.utf8Size = 1 := by
  simp only [isOctalDigit, Bool.and_eq_true, decide_eq_true_eq] at digit
  exact utf8Size_of_le (Char.le_trans digit.2 (by decide))

private theorem utf8Size_of_isBinaryDigit (c : Char) (digit : isBinaryDigit c = true) : c.utf8Size = 1 := by
  simp only [isBinaryDigit, Bool.or_eq_true, beq_iff_eq] at digit
  rcases digit with rfl | rfl <;> rfl

private theorem utf8Size_of_mark {mark lower upper : Char} (is : (mark == lower || mark == upper) = true)
    (low : lower.utf8Size = 1) (up : upper.utf8Size = 1) : mark.utf8Size = 1 := by
  rcases Bool.or_eq_true_iff.mp is with is | is <;> rw [eq_of_beq is] <;> assumption

private theorem exponentPart_reaches {length : Nat} (read : exponentPart text = some (length, rest)) :
    Reaches text 0 rest length := by
  unfold exponentPart at read
  split at read
  · cases read; exact .refl _ _
  rename_i mark tail
  split at read
  · rename_i marked
    have size := utf8Size_of_mark marked rfl rfl
    split at read
    rename_i signLength digits sign
    have signed : Reaches tail 1 digits (1 + signLength) := by
      split at sign <;> cases sign
      · exact .consAscii rfl (.refl _ _)
      · exact .consAscii rfl (.refl _ _)
      · exact .refl _ _
    split at read
    · cases read
    · rename_i count after _ run
      cases read
      exact .consAscii size (signed.trans ((digitRun_reaches utf8Size_of_isDigit run).shift _))
    · cases read
  · cases read; exact .refl _ _

private theorem fractionPart_reaches {length : Nat} (read : fractionPart text = some (length, rest)) :
    Reaches text 0 rest length := by
  unfold fractionPart at read
  split at read
  · simp only [Option.bind_eq_bind, Option.bind_eq_some_iff] at read
    obtain ⟨⟨count, after⟩, run, ⟨exponent, after'⟩, ended, read⟩ := read
    cases read
    have digits := (digitRun_reaches utf8Size_of_isDigit run).shift 1
    exact .consAscii rfl (digits.trans ((exponentPart_reaches ended).shift _))
  · exact exponentPart_reaches read

private theorem markedNumber_reaches {isDigit : Char → Bool} {token : Token} {length : Nat}
    (ascii : ∀ c, isDigit c = true → c.utf8Size = 1)
    (read : markedNumber isDigit text = some (token, length, rest)) : Reaches text 2 rest length := by
  unfold markedNumber at read
  split at read
  · rename_i count after run
    cases read
    have digits := (digitRun_reaches ascii run).shift 2
    refine digits.trans (.consAscii rfl ?_)
    rw [show 2 + (count + 1) + 1 = count + 4 by omega]
    exact .refl _ _
  · rename_i count after _ run
    cases read
    have digits := (digitRun_reaches ascii run).shift 2
    rwa [show 2 + (count + 1) = count + 3 by omega] at digits
  · cases read

private theorem decimalNumber_reaches {token : Token} {length : Nat}
    (read : decimalNumber text = some (token, length, rest)) : Reaches text 0 rest length := by
  simp only [decimalNumber, Option.bind_eq_bind, Option.bind_eq_some_iff] at read
  obtain ⟨⟨count, after⟩, run, read⟩ := read
  have digits := digitRun_reaches utf8Size_of_isDigit run
  dsimp only at read
  split at read
  · split at read
    · cases read
    · cases read
      exact digits.trans (.consAscii rfl (.refl _ _))
  · simp only [Option.bind_eq_some_iff] at read
    obtain ⟨⟨fraction, after'⟩, ended, read⟩ := read
    cases read
    exact digits.trans ((fractionPart_reaches ended).shift count)

private theorem numberLiteral_reaches {token : Token} {length : Nat}
    (read : numberLiteral text = some (token, length, rest)) : Reaches text 0 rest length := by
  unfold numberLiteral at read
  split at read
  · rename_i mark digits
    split at read
    · rename_i marked
      have size := utf8Size_of_mark marked rfl rfl
      exact .consAscii rfl (.consAscii size (markedNumber_reaches utf8Size_of_hexDigit read))
    split at read
    · rename_i marked
      have size := utf8Size_of_mark marked rfl rfl
      exact .consAscii rfl (.consAscii size (markedNumber_reaches utf8Size_of_isOctalDigit read))
    split at read
    · rename_i marked
      have size := utf8Size_of_mark marked rfl rfl
      exact .consAscii rfl (.consAscii size (markedNumber_reaches utf8Size_of_isBinaryDigit read))
    split at read
    · cases read
    split at read
    · simp only [Option.bind_eq_bind, Option.bind_eq_some_iff] at read
      obtain ⟨⟨count, after⟩, run, read⟩ := read
      have leading := digitRun_reaches utf8Size_of_isDigit run
      split at read
      · simp only [Option.bind_eq_some_iff] at read
        obtain ⟨⟨fraction, after'⟩, ended, read⟩ := read
        cases read
        exact leading.trans ((fractionPart_reaches ended).shift count)
      · cases read
        exact leading
    · exact decimalNumber_reaches read
  · exact decimalNumber_reaches read

private theorem number?_reaches {token : Token} {length : Nat}
    (read : number? text = some (token, length, rest)) : Reaches text 0 rest length := by
  simp only [number?, Option.bind_eq_bind, Option.bind_eq_some_iff] at read
  obtain ⟨⟨token', length', rest'⟩, literal, read⟩ := read
  split at read
  · cases read
  · cases read
    exact numberLiteral_reaches literal

/-! ## Strings, templates, regular expressions -/

private theorem scanString_reaches {quote : Char} {skip : Nat} {value : StringValue} {octal : Bool}
    {token : Token} (size : quote.utf8Size = 1)
    (read : scanString quote text skip pos value octal = some (token, rest, stop)) :
    Reaches text pos rest stop := by
  fun_induction scanString quote text skip pos value octal
  case case1 | case4 | case5 => cases read
  case case2 ih | case7 ih => exact .cons _ (ih read)
  case case3 mark => cases read; exact .consBeq mark size (.refl _ _)
  case case6 mark _ _ ih => exact .consBeq mark rfl (ih read)

/-- A chunk of a template consumes the text up to its end. -/
theorem templateChunk_reaches {skip : Nat} {wellFormed : Bool} {chunk : TemplateChunk}
    (read : templateChunk text skip pos wellFormed = some chunk) :
    Reaches text pos chunk.rest chunk.pos := by
  fun_induction templateChunk text skip pos wellFormed
  case case1 => cases read
  case case2 ih | case7 ih => exact .cons _ (ih read)
  case case3 => cases read; exact .consAscii rfl (.consAscii rfl (.refl _ _))
  case case4 mark => cases read; exact .consBeq mark rfl (.refl _ _)
  case case5 mark _ ih => exact .consBeq mark rfl (ih read)
  case case6 mark _ _ ih => exact .consBeq mark rfl (ih read)

private theorem scanPattern_reaches {inClass escaped : Bool}
    (read : scanPattern text inClass escaped pos = some (rest, stop)) :
    Reaches text pos rest stop := by
  fun_induction scanPattern text inClass escaped pos
  case case1 | case2 => cases read
  case case3 ih | case8 ih => exact .cons _ (ih read)
  case case4 mark ih | case5 mark ih | case6 mark ih => exact .consBeq mark rfl (ih read)
  case case7 mark =>
    cases read
    exact .consBeq (Bool.and_eq_true_iff.mp mark).1 rfl (.refl _ _)

/-- A regular expression consumes the text from its slash to its end. -/
theorem regularExpression_reaches {validFlags : Bool}
    (read : regularExpression ('/' :: text) pos = some (validFlags, rest, stop)) :
    Reaches ('/' :: text) pos rest stop := by
  simp only [regularExpression, List.drop_succ_cons, List.drop_zero, Option.bind_eq_bind,
    Option.bind_eq_some_iff] at read
  obtain ⟨⟨body, place⟩, scanned, read⟩ := read
  cases read
  have flags := List.prefix_iff_eq_append.mp (List.takeWhile_prefix continuesName (l := body))
  exact (Reaches.consAscii rfl (scanPattern_reaches scanned)).trans ⟨_, flags.symm, rfl⟩

/-! ## Punctuators -/

/-- How a text starts with one of the punctuators that the grammar may take apart or read anew. -/
def Punctuator.Opens : Punctuator → List Char → Prop
  | .greater, text => ∃ tail, text = '>' :: tail
  | .shiftLeft, text => ∃ tail, text = '<' :: '<' :: tail
  | .slash, text | .slashAssign, text => ∃ tail, text = '/' :: tail
  | _, _ => True

private theorem punctuator?_spelled {p : Punctuator} {length : Nat}
    (read : punctuator? text = some (p, length)) :
    byteSize (text.take length) = length ∧ p.Opens text := by
  unfold punctuator? at read
  split at read
  case h_13 => split at read <;> cases read <;> exact ⟨rfl, trivial⟩
  all_goals cases read
  all_goals first
    | exact ⟨rfl, trivial⟩
    | exact ⟨rfl, _, rfl⟩

/-! ## One token -/

private theorem lexHere_reaches {afterNewline : Bool} {token : Token}
    (read : lexHere text pos afterNewline = some (token, rest, stop)) : Reaches text pos rest stop := by
  unfold lexHere at read
  split at read
  · cases read; exact .refl _ _
  rename_i c tail
  split at read
  · rename_i quote
    have size := utf8Size_of_mark quote rfl rfl
    exact .consAscii size (scanString_reaches size read)
  split at read
  · rename_i mark
    cases read
    exact .consBeq mark rfl (.refl _ _)
  split at read
  · simp only [Option.map_eq_some_iff] at read
    obtain ⟨⟨token', length, rest'⟩, number, read⟩ := read
    cases read
    exact (number?_reaches number).shift pos
  split at read
  · simp only [Option.map_eq_some_iff] at read
    obtain ⟨⟨name, rest', stop'⟩, word, read⟩ := read
    cases read
    exact identifier?_reaches word
  split at read
  · rename_i mark
    simp only [Option.map_eq_some_iff] at read
    obtain ⟨⟨name, rest', stop'⟩, word, read⟩ := read
    cases read
    exact .consBeq mark rfl (identifier?_reaches word)
  split at read
  · cases read
  simp only [Option.map_eq_some_iff] at read
  obtain ⟨⟨p, length⟩, spelled, read⟩ := read
  cases read
  exact ⟨_, (List.take_append_drop length _).symm, by rw [(punctuator?_spelled spelled).1]⟩

private theorem scanString_token {quote : Char} {skip : Nat} {value : StringValue} {octal : Bool}
    {p : Punctuator} :
    scanString quote text skip pos value octal ≠ some (.punctuator p, rest, stop) := by
  intro read
  fun_induction scanString quote text skip pos value octal
  case case1 | case3 | case4 | case5 => cases read
  case case2 ih | case6 ih | case7 ih => exact ih read

private theorem markedNumber_token {isDigit : Char → Bool} {p : Punctuator} {length : Nat} :
    markedNumber isDigit text ≠ some (.punctuator p, length, rest) := by
  intro read
  unfold markedNumber at read
  split at read <;> cases read

private theorem decimalNumber_token {p : Punctuator} {length : Nat} :
    decimalNumber text ≠ some (.punctuator p, length, rest) := by
  intro read
  simp only [decimalNumber, Option.bind_eq_bind, Option.bind_eq_some_iff] at read
  obtain ⟨⟨count, after⟩, -, read⟩ := read
  dsimp only at read
  split at read
  · split at read <;> cases read
  · simp only [Option.bind_eq_some_iff] at read
    obtain ⟨_, -, read⟩ := read
    cases read

private theorem number?_token {p : Punctuator} {length : Nat} :
    number? text ≠ some (.punctuator p, length, rest) := by
  intro read
  simp only [number?, Option.bind_eq_bind, Option.bind_eq_some_iff] at read
  obtain ⟨⟨token, length', rest'⟩, literal, read⟩ := read
  split at read
  · cases read
  cases read
  unfold numberLiteral at literal
  split at literal
  · iterate 3
      split at literal
      · exact markedNumber_token literal
    split at literal
    · cases literal
    split at literal
    · simp only [Option.bind_eq_bind, Option.bind_eq_some_iff] at literal
      obtain ⟨_, -, literal⟩ := literal
      split at literal
      · simp only [Option.bind_eq_some_iff] at literal
        obtain ⟨_, -, literal⟩ := literal
        cases literal
      · cases literal
    · exact decimalNumber_token literal
  · exact decimalNumber_token literal

/-- A punctuator token is what the text starts with. -/
theorem lexHere_opens {afterNewline : Bool} {p : Punctuator}
    (read : lexHere text pos afterNewline = some (.punctuator p, rest, stop)) : p.Opens text := by
  unfold lexHere at read
  split at read
  · cases read
  split at read
  · exact absurd read scanString_token
  split at read
  · cases read
  split at read
  · simp only [Option.map_eq_some_iff] at read
    obtain ⟨⟨token, length, after⟩, number, read⟩ := read
    cases read
    exact absurd number number?_token
  split at read
  · simp at read
  split at read
  · simp at read
  split at read
  · cases read
  simp only [Option.map_eq_some_iff] at read
  obtain ⟨⟨p', length⟩, spelled, read⟩ := read
  cases read
  exact (punctuator?_spelled spelled).2

/-- Blanks divide a text from its next token, and what the token leaves lies behind it. -/
theorem lex_reaches (text : List Char) (pos : Nat) :
    Reaches text pos (lex text pos).here (lex text pos).start ∧
      Reaches (lex text pos).here (lex text pos).start (lex text pos).rest (lex text pos).stop := by
  unfold lex
  split
  · exact ⟨.refl _ _, .refl _ _⟩
  rename_i here start afterNewline blank
  split
  · exact ⟨skipTrivia_reaches blank, .refl _ _⟩
  · rename_i read
    exact ⟨skipTrivia_reaches blank, lexHere_reaches read⟩

/-- A punctuator is lexed only where its characters stand. -/
theorem lex_opens {p : Punctuator} (is : (lex text pos).token = .punctuator p) :
    p.Opens (lex text pos).here := by
  unfold lex at is ⊢
  cases blank : skipTrivia .code text pos false with
  | none => simp [blank] at is
  | some skipped =>
    obtain ⟨here, start, afterNewline⟩ := skipped
    cases read : lexHere here start afterNewline with
    | none => simp [blank, read] at is
    | some found =>
      obtain ⟨token, rest, stop⟩ := found
      simp only [blank, read] at is ⊢
      exact lexHere_opens (is ▸ read)

end Harvest.TypeScript

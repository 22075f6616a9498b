import Mathlib.Tactic.SplitIfs

/-!
# Texts in the order of their bytes

Names are compared character by character here, and file systems sort by the bytes of a name. Both come
to the same: in UTF-8 a smaller character has smaller bytes, whatever follows it.
-/

namespace Harvest.Text

/-- The bytes of a text in UTF-8. -/
def bytes (text : String) : List UInt8 := text.toUTF8.data.toList

private theorem bytes_ofList (chars : List Char) :
    bytes (String.ofList chars) = chars.flatMap String.utf8EncodeChar := by
  rw [bytes, String.toUTF8_eq_toByteArray, String.toByteArray_ofList, List.utf8Encode,
    List.toList_data_toByteArray]

/-! ## One character -/

/-- Below a bound, a smaller number is written before a larger one, whatever follows them. -/
def Ascends (bound : Nat) (write : Nat → List UInt8) : Prop :=
  ∀ v w, v < w → w < bound → ∀ rest rest', write v ++ rest < write w ++ rest'

private theorem ascends_lead (size lead : Nat) (fits : lead + size ≤ 256) :
    Ascends size fun v => [UInt8.ofNat (v % size + lead)] := by
  intro v w less bounded rest rest'
  have smaller : v % size = v := Nat.mod_eq_of_lt (Nat.lt_trans less bounded)
  have larger : w % size = w := Nat.mod_eq_of_lt bounded
  simp only [List.singleton_append, List.cons_lt_cons_iff, UInt8.lt_iff_toNat_lt, UInt8.toNat_ofNat',
    smaller, larger]
  omega

/-- A further byte carries the lowest six bits. -/
theorem Ascends.continued {bound : Nat} {write : Nat → List UInt8} (ascends : Ascends bound write) :
    Ascends (bound * 64) fun v => write (v / 64) ++ [UInt8.ofNat (v % 64 + 128)] := by
  intro v w less bounded rest rest'
  simp only [List.append_assoc]
  rcases Nat.lt_or_ge (v / 64) (w / 64) with before | notBefore
  · exact ascends _ _ before (by omega) _ _
  · have same : v / 64 = w / 64 := by omega
    rw [same]
    apply List.append_left_lt
    simp only [List.singleton_append, List.cons_lt_cons_iff, UInt8.lt_iff_toNat_lt,
      UInt8.toNat_ofNat']
    omega

/-- A smaller character has smaller bytes, whatever follows it. -/
theorem utf8EncodeChar_append_lt {c d : Char} (less : c < d) (rest rest' : List UInt8) :
    String.utf8EncodeChar c ++ rest < String.utf8EncodeChar d ++ rest' := by
  have ordered : c.val.toNat < d.val.toNat := less
  have bounded : d.val.toNat < 8 * 64 * 64 * 64 := by
    have valid := d.valid
    simp only [UInt32.isValidChar, Nat.isValidChar] at valid
    omega
  have two := (ascends_lead 32 192 (by decide)).continued
  have three := (ascends_lead 16 224 (by decide)).continued.continued
  have four := (ascends_lead 8 240 (by decide)).continued.continued.continued
  simp only [Ascends, Nat.div_div_eq_div_mul, Nat.reduceMul, List.cons_append, List.nil_append]
    at two three four
  unfold String.utf8EncodeChar
  simp only
  generalize c.val.toNat = v at ordered ⊢
  generalize d.val.toNat = w at ordered bounded ⊢
  -- Between lengths the first byte decides; characters of one length are compared digit by digit.
  split_ifs
  all_goals first
    | refine List.cons_lt_cons_iff.mpr (.inl (UInt8.lt_iff_toNat_lt.mpr ?_))
      rw [UInt8.toNat_ofNat', UInt8.toNat_ofNat']
      omega
    | exact two v w ordered (by omega) rest rest'
    | exact three v w ordered (by omega) rest rest'
    | exact four v w ordered bounded rest rest'

/-! ## Texts and lists of texts -/

private theorem flatMap_utf8EncodeChar_lt {front back : List Char} (less : front < back) :
    front.flatMap String.utf8EncodeChar < back.flatMap String.utf8EncodeChar := by
  induction less with
  | @nil c chars =>
    rw [List.flatMap_nil, List.flatMap_cons]
    cases encoded : String.utf8EncodeChar c with
    | nil => exact absurd encoded String.utf8EncodeChar_ne_nil
    | cons byte more => exact List.Lex.nil
  | rel smaller => exact utf8EncodeChar_append_lt smaller _ _
  | cons _ ih =>
    rw [List.flatMap_cons, List.flatMap_cons]
    exact List.append_left_lt ih

/-- A smaller text has smaller bytes. -/
theorem bytes_lt_bytes {front back : String} (less : front < back) : bytes front < bytes back := by
  have chars : front.toList < back.toList := less
  have encoded := flatMap_utf8EncodeChar_lt chars
  rwa [← bytes_ofList, ← bytes_ofList, String.ofList_toList, String.ofList_toList] at encoded

/-- Lists of texts are in the order of their lists of bytes. -/
theorem map_bytes_lt_map_bytes {front back : List String} (less : front < back) :
    front.map bytes < back.map bytes := by
  induction less with
  | nil => exact List.Lex.nil
  | rel smaller => exact List.Lex.rel (bytes_lt_bytes smaller)
  | cons _ ih => exact List.Lex.cons ih

end Harvest.Text

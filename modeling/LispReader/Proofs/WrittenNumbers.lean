import LispReader.Proofs.IntegerLiterals
import LispReader.Proofs.TextSources
import LispReader.Settings

/-!
# Numbers written in a text

A text writes a number if it is a numeral for it, with a plus sign in front or without, and white
space around. The numeral may be of any length and begin with any zeros, and the white space is any
that Unicode knows. Trimming a text and reading what is left finds the number that it writes, and
finds none if it writes none; so no text writes two.
-/

namespace LispReader

/-! ## White space around a text -/

namespace CodePointSet

/-- Whether a character has the property White_Space. -/
def IsWhiteSpace (char : Char) : Prop :=
  (0x9 ≤ char.toNat ∧ char.toNat ≤ 0xD) ∨ char.toNat ∈ [0x20, 0x85, 0xA0, 0x1680] ∨
    (0x2000 ≤ char.toNat ∧ char.toNat ≤ 0x200A) ∨
    char.toNat ∈ [0x2028, 0x2029, 0x202F, 0x205F, 0x3000]

/-- The places where membership changes are those of White_Space. -/
theorem contains_whiteSpace_iff {char : Char} :
    whiteSpace.contains char = true ↔ IsWhiteSpace char := by
  simp only [whiteSpace, contains_cons_cons, contains_empty, IsWhiteSpace, List.mem_cons,
    List.not_mem_nil, Bool.false_eq_true, or_false]
  omega

end CodePointSet

namespace Text

open CodePointSet

/-- What is dropped from the front ends before the first character that is not of the class. -/
theorem dropWhile_append_of_stop {drops : Char → Bool} {run rest : List Char}
    (dropped : ∀ char ∈ run, drops char = true)
    (stop : ∀ char, rest.head? = some char → drops char = false) :
    (run ++ rest).dropWhile drops = rest := by
  rw [List.dropWhile_append_of_pos dropped]
  cases rest with
  | nil => rfl
  | cons char others => rw [List.dropWhile_cons, stop char rfl]; rfl

/-- What is dropped from the front is of the class. -/
theorem exists_dropWhile (drops : Char → Bool) (chars : List Char) :
    ∃ run, chars = run ++ chars.dropWhile drops ∧ ∀ char ∈ run, drops char = true :=
  ⟨chars.takeWhile drops, List.takeWhile_append_dropWhile.symm,
    List.all_eq_true.mp List.all_takeWhile⟩

/-- White space is trimmed off both sides of what has none. -/
theorem trim_append {front core back : List Char} (nonempty : core ≠ [])
    (solid : ∀ char ∈ core, ¬ IsWhiteSpace char)
    (blank : ∀ char ∈ front ++ back, IsWhiteSpace char) :
    trim (String.ofList front ++ String.ofList core ++ String.ofList back) = core := by
  have blank' : ∀ char ∈ front ++ back, whiteSpace.contains char = true :=
    fun char member => contains_whiteSpace_iff.mpr (blank char member)
  have solid' : ∀ char ∈ core, whiteSpace.contains char = false := fun char member =>
    Bool.eq_false_iff.mpr fun inside => solid char member (contains_whiteSpace_iff.mp inside)
  -- From either side, dropping stops at the first character of the core that it meets.
  have ahead : (front ++ (core ++ back)).dropWhile whiteSpace.contains = core ++ back := by
    obtain ⟨first, others, rfl⟩ := List.exists_cons_of_ne_nil nonempty
    apply dropWhile_append_of_stop fun char member => blank' char (List.mem_append_left _ member)
    rintro char ⟨⟩
    exact solid' first List.mem_cons_self
  have behind : (back.reverse ++ core.reverse).dropWhile whiteSpace.contains = core.reverse := by
    apply dropWhile_append_of_stop
    · intro char member
      exact blank' char (List.mem_append_right _ (List.mem_reverse.mp member))
    · intro char last
      exact solid' char (List.mem_reverse.mp (List.mem_of_head? last))
  simp only [trim, String.toList_append, String.toList_ofList, List.append_assoc, ahead,
    List.reverse_append, behind, List.reverse_reverse]

/-- Only white space is trimmed off. -/
theorem exists_trim (text : String) :
    ∃ front back, text = String.ofList front ++ String.ofList (trim text) ++ String.ofList back ∧
      ∀ char ∈ front ++ back, IsWhiteSpace char := by
  obtain ⟨front, whole, ahead⟩ := exists_dropWhile whiteSpace.contains text.toList
  obtain ⟨back, tail, behind⟩ :=
    exists_dropWhile whiteSpace.contains (text.toList.dropWhile whiteSpace.contains).reverse
  have trimmed : text.toList.dropWhile whiteSpace.contains = trim text ++ back.reverse := by
    rw [trim, ← List.reverse_append, ← tail, List.reverse_reverse]
  refine ⟨front, back.reverse, String.toList_inj.mp ?_, ?_⟩
  · simp only [String.toList_append, String.toList_ofList]
    rw [List.append_assoc, ← trimmed, ← whole]
  · intro char member
    apply contains_whiteSpace_iff.mp
    rcases List.mem_append.mp member with inFront | inBack
    · exact ahead char inFront
    · exact behind char (List.mem_reverse.mp inBack)

end Text

/-! ## Numerals -/

namespace Lexeme

/-- Whether a lexeme is a numeral for the natural number `number`: a digit or more, with a plus sign
in front or without. -/
inductive Counts : List UInt8 → Nat → Prop where
  | plain {digits : List UInt8} (numeral : Numeral.isNumeral digits = true) :
    Counts digits (Numeral.placeValue digits)
  | plus {digits : List UInt8} (numeral : Numeral.isNumeral digits = true) :
    Counts (Byte.plus :: digits) (Numeral.placeValue digits)

/-- A numeral has a first byte. -/
theorem Counts.ne_nil {numeral : List UInt8} {number : Nat} (counts : Counts numeral number) :
    numeral ≠ [] := by
  cases counts with
  | plain digits =>
    obtain ⟨first, others, rfl, -⟩ := Piece.exists_of_isNumeral digits
    exact List.cons_ne_nil first others
  | plus digits => exact List.cons_ne_nil _ _

/-- A numeral holds digits, and a plus sign at most. -/
theorem Counts.plus_or_isDigit {numeral : List UInt8} {number : Nat}
    (counts : Counts numeral number) :
    ∀ byte ∈ numeral, byte = Byte.plus ∨ Byte.isDigit byte = true := by
  have inside {digits : List UInt8} (numeral : Numeral.isNumeral digits = true) :
      ∀ byte ∈ digits, byte = Byte.plus ∨ Byte.isDigit byte = true :=
    fun byte member => .inr (List.all_eq_true.mp (Piece.all_of_isNumeral numeral) byte member)
  cases counts with
  | plain digits => exact inside digits
  | plus digits => exact List.forall_mem_cons.mpr ⟨.inl rfl, inside digits⟩

/-- The number that is read is the one that the lexeme is a numeral for. -/
theorem readNat?_eq_some {lexeme : List UInt8} {number : Nat} :
    Numeral.readNat? lexeme = some number ↔ Counts lexeme number := by
  constructor
  · intro read
    cases lexeme with
    | nil => cases read
    | cons byte rest =>
      by_cases sign : byte = Byte.plus
      · subst sign
        simp only [Numeral.readNat?, beq_self_eq_true, if_true, Option.ite_none_right_eq_some,
          Option.some_inj] at read
        obtain ⟨numeral, rfl⟩ := read
        rw [Numeral.value_eq_placeValue]
        exact .plus numeral
      · simp only [Numeral.readNat?, beq_eq_false_iff_ne.mpr sign, Bool.false_eq_true, if_false,
          Option.ite_none_right_eq_some, Option.some_inj] at read
        obtain ⟨numeral, rfl⟩ := read
        rw [Numeral.value_eq_placeValue]
        exact .plain numeral
  · intro counts
    cases counts with
    | plain numeral =>
      obtain ⟨first, others, rfl, digit⟩ := Piece.exists_of_isNumeral numeral
      have unsigned : (first == Byte.plus) = false := by
        refine beq_eq_false_iff_ne.mpr fun plus => ?_
        subst plus
        cases digit
      simp only [Numeral.readNat?, unsigned, Bool.false_eq_true, if_false, numeral, if_true,
        Numeral.value_eq_placeValue]
    | plus numeral =>
      simp only [Numeral.readNat?, beq_self_eq_true, if_true, numeral,
        Numeral.value_eq_placeValue]

end Lexeme

/-! ## Texts of ASCII bytes -/

namespace Text

open CodePointSet

/-- The character of an ASCII byte has its code. -/
theorem toNat_ofNat {byte : UInt8} (ascii : Byte.isAscii byte = true) :
    (Char.ofNat byte.toNat).toNat = byte.toNat := by
  have small : byte.toNat < 0x80 := UInt8.lt_iff_toNat_lt.mp (of_decide_eq_true ascii)
  obtain ⟨character, code⟩ := Utf8.exists_char byte.toNat (.inl (by omega))
  rw [← code]
  exact congrArg Char.toNat (Char.ofNat_toNat character)

/-- A text made of ASCII bytes has these bytes. -/
theorem bytes_ofAscii {input : List UInt8} (ascii : ∀ byte ∈ input, Byte.isAscii byte = true) :
    bytes (ofAscii input) = input := by
  rw [bytes_eq_encode, ofAscii, String.toList_ofList]
  induction input with
  | nil => rfl
  | cons byte rest ih =>
    rw [List.forall_mem_cons] at ascii
    have small : byte.toNat < 0x80 := UInt8.lt_iff_toNat_lt.mp (of_decide_eq_true ascii.1)
    have single : String.utf8EncodeChar (Char.ofNat byte.toNat) = [byte] := by
      have code : (Char.ofNat byte.toNat).val.toNat = byte.toNat := toNat_ofNat ascii.1
      simp only [String.utf8EncodeChar, code]
      rw [if_pos (Nat.le_of_lt_succ small), UInt8.ofNat_toNat]
    rw [List.map_cons, Utf8.encode_cons, single, ih ascii.2]
    rfl

end Text

/-! ## Numbers -/

namespace Byte

/-- Numerals are made of ASCII bytes. -/
theorem isAscii_of_plus_or_isDigit {byte : UInt8}
    (inside : byte = plus ∨ isDigit byte = true) : isAscii byte = true := by
  rcases inside with rfl | digit
  · rfl
  · exact isAscii_of_isPointOrDigit (by rw [isPointOrDigit, digit, Bool.or_true])

/-- No white space stands in a numeral. -/
theorem not_isWhiteSpace {byte : UInt8} (inside : byte = plus ∨ isDigit byte = true) :
    ¬ CodePointSet.IsWhiteSpace (Char.ofNat byte.toNat) := by
  have code := Text.toNat_ofNat (isAscii_of_plus_or_isDigit inside)
  simp only [CodePointSet.IsWhiteSpace, code, List.mem_cons, List.not_mem_nil, or_false]
  rcases inside with rfl | digit
  · decide
  · simp only [isDigit, Bool.and_eq_true, decide_eq_true_eq, UInt8.le_iff_toNat_le,
      UInt8.reduceToNat] at digit
    omega

end Byte

namespace Text

open CodePointSet

/-- Whether a text writes a number: it is a numeral for it, with white space around. -/
def Writes (text : String) (number : Nat) : Prop :=
  ∃ front numeral back, text = String.ofList front ++ ofAscii numeral ++ String.ofList back ∧
    (∀ char ∈ front ++ back, IsWhiteSpace char) ∧ Lexeme.Counts numeral number

/-- The text of a numeral has its bytes. -/
theorem bytes_of_counts {numeral : List UInt8} {number : Nat}
    (counts : Lexeme.Counts numeral number) : bytes (ofAscii numeral) = numeral :=
  bytes_ofAscii fun byte member =>
    Byte.isAscii_of_plus_or_isDigit (counts.plus_or_isDigit byte member)

/-- Trimming a text leaves the numeral that white space stands around. -/
theorem trim_of_counts {front back : List Char} {numeral : List UInt8} {number : Nat}
    (blank : ∀ char ∈ front ++ back, IsWhiteSpace char) (counts : Lexeme.Counts numeral number) :
    String.ofList (trim (String.ofList front ++ ofAscii numeral ++ String.ofList back)) =
      ofAscii numeral := by
  refine congrArg String.ofList (trim_append ?_ ?_ blank)
  · intro none
    exact counts.ne_nil (List.map_eq_nil_iff.mp none)
  · intro char member
    obtain ⟨byte, inside, rfl⟩ := List.mem_map.mp member
    exact Byte.not_isWhiteSpace (counts.plus_or_isDigit byte inside)

/-- The number read from a text without its white space is the one that the text writes. -/
theorem readNat?_trim {text : String} {number : Nat} :
    Numeral.readNat? (bytes (String.ofList (trim text))) = some number ↔ Writes text number := by
  rw [Lexeme.readNat?_eq_some]
  constructor
  · intro counts
    obtain ⟨front, back, whole, blank⟩ := exists_trim text
    refine ⟨front, bytes (String.ofList (trim text)), back, ?_, blank, counts⟩
    rw [bytes_inj.mp (bytes_of_counts counts)]
    exact whole
  · rintro ⟨front, numeral, back, rfl, blank, counts⟩
    rw [trim_of_counts blank counts, bytes_of_counts counts]
    exact counts

/-- No text writes two numbers. -/
theorem Writes.unique {text : String} {number other : Nat} (writes : Writes text number)
    (writes' : Writes text other) : other = number :=
  Option.some.inj ((readNat?_trim.mpr writes').symm.trans (readNat?_trim.mpr writes))

end Text

end LispReader

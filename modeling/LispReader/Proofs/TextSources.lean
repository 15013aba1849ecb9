import LispReader.Proofs.BatchSize
import LispReader.Proofs.Echo
import LispReader.Proofs.ReportOrder
import LispReader.Proofs.StringLiterals

/-!
# Sources that are text

Sources are bytes, and tokens are cut off byte by byte. Nevertheless a source that is text is only
cut where one character ends and the next begins: a run of symbol bytes goes on over every byte past
ASCII, and whatever else ends a token is an ASCII byte. An escape takes one backslash away or puts
an ASCII byte in the place of two. So the lexemes of a text and the contents of its strings are
text, and no name in it is refused.
-/

namespace LispReader

open Lexeme

/-! ## ASCII bytes -/

namespace Byte

/-- Whether a byte is a character of its own. -/
def isAscii (byte : UInt8) : Bool := byte < 0x80

/-- Every byte past ASCII may stand in a name. -/
theorem isAscii_of_isSymbol {byte : UInt8} (other : isSymbol byte = false) :
    isAscii byte = true := by
  simp only [isSymbol, Bool.or_eq_false_iff, decide_eq_false_iff_not, UInt8.not_le] at other
  exact decide_eq_true other.2

/-- Blanks are ASCII bytes. -/
theorem isAscii_of_isBlank {byte : UInt8} (blank : isBlank byte = true) : isAscii byte = true :=
  isAscii_of_isSymbol (isSymbol_of_isBlank blank)

/-- Points and digits are ASCII bytes. -/
theorem isAscii_of_isPointOrDigit {byte : UInt8} (inside : isPointOrDigit byte = true) :
    isAscii byte = true := by
  simp only [isPointOrDigit, isDigit, Bool.or_eq_true, Bool.and_eq_true, beq_iff_eq,
    decide_eq_true_eq, UInt8.le_iff_toNat_le] at inside
  rcases inside with rfl | ⟨-, high⟩
  · rfl
  · exact decide_eq_true (UInt8.lt_iff_toNat_lt.mpr (Nat.lt_of_le_of_lt high (by decide)))

end Byte

/-! ## Text and its parts -/

namespace Utf8

/-- A character is one ASCII byte, or has none. -/
theorem ascii_utf8EncodeChar (character : Char) :
    (∃ byte, String.utf8EncodeChar character = [byte] ∧ Byte.isAscii byte = true) ∨
      ∀ byte ∈ String.utf8EncodeChar character, Byte.isAscii byte = false := by
  have scalar := character.valid
  simp only [UInt32.isValidChar, Nat.isValidChar] at scalar
  unfold String.utf8EncodeChar
  generalize character.val.toNat = code at scalar
  by_cases one : code ≤ 0x7F
  · refine .inl ⟨UInt8.ofNat code, if_pos one, decide_eq_true ?_⟩
    rw [UInt8.lt_iff_toNat_lt, UInt8.toNat_ofNat']
    exact Nat.lt_of_le_of_lt (Nat.mod_le _ _) (Nat.lt_of_le_of_lt one (by decide))
  · refine .inr ?_
    simp only [if_neg one]
    repeat' split
    all_goals
      simp only [List.forall_mem_cons, List.not_mem_nil, false_implies, implies_true, and_true,
        Byte.isAscii, decide_eq_false_iff_not, UInt8.not_lt, UInt8.le_iff_toNat_le,
        UInt8.toNat_ofNat', UInt8.reduceToNat]
      omega

/-- The bytes of a character come before those of the others. -/
theorem encode_cons (character : Char) (rest : List Char) :
    encode (character :: rest) = String.utf8EncodeChar character ++ encode rest :=
  List.flatMap_cons

/-- Characters in front are repaired to themselves. -/
theorem repair_encode_append (characters : List Char) (rest : List UInt8) :
    repair (encode characters ++ rest) = encode characters ++ repair rest := by
  induction characters with
  | nil => rfl
  | cons character others ih =>
    rw [encode_cons, List.append_assoc, repair_append, ih, List.append_assoc]

/-- Characters that make up two rows of bytes make up each of them, provided that the second row
starts with an ASCII byte or is empty. -/
theorem encode_eq_append {characters : List Char} {front back : List UInt8}
    (same : encode characters = front ++ back) (stop : Ends (!Byte.isAscii ·) back) :
    ∃ first second, front = encode first ∧ back = encode second := by
  induction characters generalizing front with
  | nil =>
    obtain ⟨rfl, rfl⟩ := List.append_eq_nil_iff.mp same.symm
    exact ⟨[], [], rfl, rfl⟩
  | cons character rest ih =>
    rcases List.append_eq_append_iff.mp same with ⟨front, rfl, inside⟩ | ⟨rest', parts, rfl⟩
    · obtain ⟨first, second, rfl, rfl⟩ := ih inside
      exact ⟨character :: first, second, rfl, rfl⟩
    · -- The second row starts inside the character, or right before or behind it.
      rcases front with - | ⟨byte, front⟩
      · exact ⟨[], character :: rest, rfl, by rw [encode_cons, parts]; rfl⟩
      rcases rest' with - | ⟨next, others⟩
      · exact ⟨[character], rest, by rw [encode, List.flatMap_singleton, parts, List.append_nil],
          rfl⟩
      · have ascii : Byte.isAscii next = true := by simpa using stop next rfl
        rcases ascii_utf8EncodeChar character with ⟨only, single, -⟩ | high
        · rw [single] at parts
          cases front <;> cases parts
        · rw [high next (by rw [parts]; simp)] at ascii
          cases ascii

end Utf8

namespace Text

/-- Whether bytes are text. -/
def IsText (input : List UInt8) : Prop := ∃ text, ofBytes? input = some text

/-- Text is a row of characters. -/
theorem isText_iff {input : List UInt8} :
    IsText input ↔ ∃ characters, input = Utf8.encode characters := by
  constructor
  · rintro ⟨text, found⟩
    exact ⟨text.toList, by rw [← ofBytes?_eq_some.mp found, bytes_eq_encode]⟩
  · rintro ⟨characters, rfl⟩
    exact ⟨String.ofList characters, ofBytes?_eq_some.mpr (by rw [bytes_eq_encode,
      String.toList_ofList])⟩

/-- A character is text. -/
theorem isText_character (character : Char) : IsText (String.utf8EncodeChar character) :=
  isText_iff.mpr ⟨[character], by rw [Utf8.encode, List.flatMap_singleton]⟩

/-- The bytes of a text are text. -/
theorem isText_bytes (text : String) : IsText (bytes text) := ⟨text, ofBytes?_bytes text⟩

/-- No bytes are a text. -/
theorem isText_nil : IsText [] := isText_bytes ""

/-- Text after text is text. -/
theorem IsText.append {first second : List UInt8} (front : IsText first) (back : IsText second) :
    IsText (first ++ second) := by
  obtain ⟨text, found⟩ := front
  obtain ⟨text', found'⟩ := back
  refine ⟨text ++ text', ofBytes?_eq_some.mpr ?_⟩
  rw [bytes_append, ofBytes?_eq_some.mp found, ofBytes?_eq_some.mp found']

/-- ASCII bytes are text. -/
theorem isText_of_ascii {input : List UInt8} (ascii : ∀ byte ∈ input, Byte.isAscii byte = true) :
    IsText input := by
  induction input with
  | nil => exact isText_nil
  | cons byte rest ih =>
    rw [List.forall_mem_cons] at ascii
    have small : byte.toNat ≤ 0x7F :=
      Nat.le_of_lt_succ (UInt8.lt_iff_toNat_lt.mp (of_decide_eq_true ascii.1))
    obtain ⟨character, single⟩ := Utf8.exists_one small
    exact (single ▸ isText_character character).append (ih ascii.2)

/-- An ASCII byte is text. -/
theorem isText_singleton {byte : UInt8} (ascii : Byte.isAscii byte = true) : IsText [byte] :=
  isText_of_ascii (List.forall_mem_singleton.mpr ascii)

/-- Text is text on both sides of a place where an ASCII byte comes next, or nothing. -/
theorem IsText.of_append {front back : List UInt8} (text : IsText (front ++ back))
    (stop : Ends (!Byte.isAscii ·) back) : IsText front ∧ IsText back := by
  obtain ⟨characters, same⟩ := isText_iff.mp text
  obtain ⟨first, second, rfl, rfl⟩ := Utf8.encode_eq_append same.symm stop
  exact ⟨isText_iff.mpr ⟨first, rfl⟩, isText_iff.mpr ⟨second, rfl⟩⟩

/-- What follows text in a text is text. -/
theorem IsText.of_text_append {front back : List UInt8} (first : IsText front)
    (text : IsText (front ++ back)) : IsText back := by
  obtain ⟨characters, rfl⟩ := isText_iff.mp first
  have same := repair_eq_self_iff.mpr text
  rw [Utf8.repair_encode_append] at same
  exact repair_eq_self_iff.mp (List.append_cancel_left same)

/-- A place in a text with text on both sides lies between two characters. -/
theorem isValid_of_append {text : String} {front back : List UInt8}
    (parts : bytes text = front ++ back) (first : IsText front) (second : IsText back) :
    String.Pos.Raw.IsValid text ⟨front.length⟩ := by
  obtain ⟨before, found⟩ := first
  obtain ⟨after, found'⟩ := second
  rw [ofBytes?_eq_some] at found found'
  subst found
  subst found'
  rw [← bytes_append, bytes_inj] at parts
  rw [parts, String.Pos.Raw.isValid_iff_exists_append]
  exact ⟨before, after, rfl, rfl⟩

end Text

/-! ## Lexemes of a text -/

namespace Piece

/-- What ends a piece that every byte past ASCII continues is an ASCII byte. -/
theorem ends_isAscii {keep : UInt8 → Bool} {rest : List UInt8} (stop : Ends keep rest)
    (ascii : ∀ byte, keep byte = false → Byte.isAscii byte = true) :
    Ends (!Byte.isAscii ·) rest :=
  fun byte first => congrArg not (ascii byte (stop byte first))

/-- A piece of a text is text, and so is what comes after it. -/
theorem Fits.isText {piece : Piece} {lexeme rest : List UInt8} (fits : piece.Fits lexeme rest)
    (text : Text.IsText (lexeme ++ rest)) : Text.IsText lexeme ∧ Text.IsText rest := by
  -- A piece either is made of ASCII bytes or ends where an ASCII byte comes next.
  have ofAscii (ascii : ∀ byte ∈ lexeme, Byte.isAscii byte = true) :
      Text.IsText lexeme ∧ Text.IsText rest :=
    have first := Text.isText_of_ascii ascii
    ⟨first, first.of_text_append text⟩
  have ofSymbols (stop : Ends Byte.isSymbol rest) : Text.IsText lexeme ∧ Text.IsText rest :=
    text.of_append (ends_isAscii stop fun _ => Byte.isAscii_of_isSymbol)
  match piece with
  | .trivia =>
    rcases fits with ⟨-, blank, -⟩ | ⟨run, rfl, -, stop⟩
    · exact ofAscii fun byte member =>
        Byte.isAscii_of_isBlank (List.all_eq_true.mp blank byte member)
    · refine text.of_append (ends_isAscii stop fun byte newline => ?_)
      rw [bne_eq_false_iff_eq] at newline
      rw [newline]
      rfl
  | .token .leftParen | .token .rightParen | .token .quote =>
    cases fits
    exact ofAscii (List.forall_mem_singleton.mpr rfl)
  | .token .atom | .token .float => exact ofSymbols fits.2
  | .token .integer => exact ofSymbols fits.2.1
  | .token .string =>
    obtain ⟨contents, -, rfl⟩ := fits
    have mark : Text.IsText [Byte.quotationMark] := Text.isText_singleton rfl
    rw [← List.cons_append, List.append_assoc] at text
    obtain ⟨front, back⟩ := text.of_append fun byte first => by cases first; rfl
    exact ⟨front.append mark, mark.of_text_append back⟩
  | .malformed .unterminatedString =>
    rw [fits.1, List.append_nil] at text
    exact ⟨text, fits.1 ▸ Text.isText_nil⟩
  | .malformed .malformedNumber =>
    rcases fits with ⟨number, tail, -, -, -, -, -, stop⟩ | ⟨run, rfl, -, inside, -⟩
    · exact ofSymbols stop
    · refine ofAscii (List.forall_mem_cons.mpr ⟨rfl, fun byte member => ?_⟩)
      exact Byte.isAscii_of_isPointOrDigit (List.all_eq_true.mp inside byte member)
  | .malformed .lonePoint =>
    rw [fits.1] at ofAscii ⊢
    exact ofAscii (List.forall_mem_singleton.mpr rfl)
  | .malformed (.strayByte byte) =>
    obtain ⟨rfl, stray⟩ := fits
    simp only [Byte.isStray, Bool.and_eq_true, Bool.not_eq_true'] at stray
    exact ofAscii (List.forall_mem_singleton.mpr (Byte.isAscii_of_isSymbol stray.1.2))

end Piece

namespace Scanner

/-- Every token of a text covers text between texts. -/
theorem isText_of_mem_cut {before rest : List UInt8} (first : Text.IsText before)
    (second : Text.IsText rest) {reported : ReportedToken}
    (member : reported ∈ cut before.length rest) :
    ∃ front lexeme back, before ++ rest = front ++ lexeme ++ back ∧
      Text.IsText front ∧ Text.IsText lexeme ∧ Text.IsText back ∧
      reported.token.span = ⟨front.length, front.length + lexeme.length⟩ := by
  induction before, rest using behind_induction with
  | nil before =>
    rw [cut_nil, List.mem_singleton] at member
    subst member
    exact ⟨before, [], [], by simp, first, Text.isText_nil, Text.isText_nil, rfl⟩
  | trivia before lexeme rest nonempty fits ih =>
    obtain ⟨middle, last⟩ := fits.isText second
    rw [cut_trivia lexeme before.length nonempty fits, ← List.length_append] at member
    rw [← List.append_assoc]
    exact ih (first.append middle) last member
  | token before piece kind lexeme rest fits known ih =>
    obtain ⟨middle, last⟩ := fits.isText second
    rw [cut_of_fits piece before.length fits known, ← List.length_append] at member
    rw [← List.append_assoc]
    rcases List.mem_cons.mp member with rfl | later
    · exact ⟨before, lexeme, rest, rfl, first, middle, last, by rw [List.length_append]⟩
    · exact ih (first.append middle) last later

/-- Every token of a text starts and stops between characters, and its lexeme is text. -/
theorem isText_lexeme {text : String} {token : Token}
    (listed : token ∈ tokens (Text.bytes text)) :
    String.Pos.Raw.IsValid text ⟨token.span.start⟩ ∧
      String.Pos.Raw.IsValid text ⟨token.span.stop⟩ ∧
      Text.IsText (token.lexeme (Text.bytes text)) := by
  rw [tokens_eq_cut] at listed
  obtain ⟨reported, member, rfl⟩ := List.mem_map.mp listed
  obtain ⟨front, lexeme, back, parts, first, middle, last, covered⟩ :=
    isText_of_mem_cut Text.isText_nil (Text.isText_bytes text) member
  rw [List.nil_append] at parts
  rw [Token.lexeme, covered]
  refine ⟨?_, ?_, ?_⟩
  · rw [List.append_assoc] at parts
    exact Text.isValid_of_append parts first (middle.append last)
  · rw [← List.length_append]
    exact Text.isValid_of_append parts (first.append middle) last
  · rw [parts, Span.slice_append]
    exact middle

end Scanner

/-! ## Contents of a text -/

namespace Escape

/-- Bytes that are no backslashes stand for themselves. -/
theorem decode_append {run : List UInt8} (plain : ∀ byte ∈ run, byte ≠ Byte.backslash)
    (rest : List UInt8) : decode (run ++ rest) = run ++ decode rest := by
  induction run with
  | nil => rfl
  | cons byte run ih =>
    rw [List.forall_mem_cons] at plain
    rw [List.cons_append, decode_cons_of_ne plain.1, ih plain.2, List.cons_append]

/-- No byte past ASCII is a backslash. -/
theorem ne_backslash {run : List UInt8} (high : ∀ byte ∈ run, Byte.isAscii byte = false) :
    ∀ byte ∈ run, byte ≠ Byte.backslash := by
  rintro byte member rfl
  cases high _ member

/-- A byte past ASCII means itself. -/
theorem meaning_of_high {letter : UInt8} (high : Byte.isAscii letter = false) :
    meaning letter = letter := by
  unfold meaning
  split
  · rename_i mark
    rw [beq_iff_eq.mp mark] at high
    cases high
  split
  · rename_i mark
    rw [beq_iff_eq.mp mark] at high
    cases high
  · rfl

/-- A meaning of an ASCII byte is one. -/
theorem isAscii_meaning {letter : UInt8} (ascii : Byte.isAscii letter = true) :
    Byte.isAscii (meaning letter) = true := by
  unfold meaning
  repeat' split
  · rfl
  · rfl
  · exact ascii

/-- A character that is no backslash stands for itself. -/
theorem decode_character_append {character : Char}
    (plain : String.utf8EncodeChar character ≠ [Byte.backslash]) (rest : List UInt8) :
    decode (String.utf8EncodeChar character ++ rest) =
      String.utf8EncodeChar character ++ decode rest := by
  refine decode_append ?_ rest
  rcases Utf8.ascii_utf8EncodeChar character with ⟨byte, single, -⟩ | high
  · rw [single] at plain ⊢
    exact List.forall_mem_singleton.mpr fun same => plain (congrArg (List.cons · []) same)
  · exact ne_backslash high

/-- A backslash and the character after it stand for text. -/
theorem isText_decode_backslash (character : Char) (rest : List UInt8) :
    ∃ meant, Text.IsText meant ∧
      decode (Byte.backslash :: (String.utf8EncodeChar character ++ rest)) =
        meant ++ decode rest := by
  rcases Utf8.ascii_utf8EncodeChar character with ⟨letter, single, ascii⟩ | high
  · exact ⟨[meaning letter], Text.isText_singleton (isAscii_meaning ascii), by rw [single]; rfl⟩
  · -- Only the backslash goes away: the lead byte means itself, and the others are not escaped.
    refine ⟨String.utf8EncodeChar character, Text.isText_character character, ?_⟩
    obtain ⟨lead, ranges, others, bytes, -⟩ := Utf8.follow_utf8EncodeChar character
    rw [bytes, List.forall_mem_cons] at high
    have escaped : decode (Byte.backslash :: lead :: (others ++ rest)) =
        meaning lead :: decode (others ++ rest) := rfl
    rw [bytes, List.cons_append, escaped, meaning_of_high high.1,
      decode_append (ne_backslash high.2), List.cons_append]

/-- A text decodes to text. -/
theorem isText_decode {input : List UInt8} (text : Text.IsText input) :
    Text.IsText (decode input) := by
  obtain ⟨characters, rfl⟩ := Text.isText_iff.mp text
  clear text
  induction size : characters.length using Nat.strongRecOn generalizing characters with
  | _ size ih =>
    cases characters with
    | nil => exact Text.isText_nil
    | cons character rest =>
      rw [List.length_cons] at size
      rw [Utf8.encode_cons]
      by_cases escape : String.utf8EncodeChar character = [Byte.backslash]
      · rw [escape]
        -- The character after the backslash goes with it.
        cases rest with
        | nil => exact Text.isText_singleton (rfl : Byte.isAscii Byte.backslash = true)
        | cons next rest =>
          obtain ⟨meant, text, same⟩ := isText_decode_backslash next (Utf8.encode rest)
          rw [Utf8.encode_cons, List.singleton_append, same]
          rw [List.length_cons] at size
          exact text.append (ih rest.length (by omega) rest rfl)
      · rw [decode_character_append escape]
        exact (Text.isText_character character).append (ih rest.length (by omega) rest rfl)

/-- What stands between the quotation marks of a literal that is text decodes to text. -/
theorem isText_decode_of_marks {inner : List UInt8}
    (text : Text.IsText (Byte.quotationMark :: (inner ++ [Byte.quotationMark]))) :
    Text.IsText (decode inner) := by
  have mark : Text.IsText [Byte.quotationMark] := Text.isText_singleton rfl
  have behind := (mark.of_text_append text).of_append fun byte first => by cases first; rfl
  exact isText_decode behind.1

end Escape

/-! ## What a text is read as -/

namespace Phrase

variable {holds : Form → Prop}

mutual

/-- What holds of every list, of every quote and of what the leaves of a phrase are read as holds of
everything that the phrase is read as. -/
theorem every_convert (source : List UInt8) (symbols : SymbolTable) (phrase : Phrase)
    (lists : ∀ span items, holds (.list span items))
    (quotes : ∀ span quoted, holds (.quote span quoted))
    (leaves : ∀ (kind : LeafKind) (span : Span) (table : SymbolTable),
      ⟨kind.tokenKind, span⟩ ∈ phrase.tokens →
        (kind.convert span (span.slice source) table).value.Every holds) :
    (phrase.convert source symbols).value.Every holds := by
  match phrase with
  | .leaf kind span => exact leaves kind span symbols (List.mem_singleton_self _)
  | .list opening items closing =>
    refine ⟨lists _ _, everyOf_convertAll source symbols items lists quotes ?_⟩
    exact fun kind span table member =>
      leaves kind span table (List.mem_cons_of_mem _ (List.mem_append_left _ member))
  | .quote mark quoted =>
    refine ⟨quotes _ _, every_convert source symbols quoted lists quotes ?_⟩
    exact fun kind span table member => leaves kind span table (List.mem_cons_of_mem _ member)

/-- What holds of every list, of every quote and of what the leaves of phrases are read as holds of
everything that the phrases are read as. -/
theorem everyOf_convertAll (source : List UInt8) (symbols : SymbolTable) (phrases : List Phrase)
    (lists : ∀ span items, holds (.list span items))
    (quotes : ∀ span quoted, holds (.quote span quoted))
    (leaves : ∀ (kind : LeafKind) (span : Span) (table : SymbolTable),
      ⟨kind.tokenKind, span⟩ ∈ tokensAll phrases →
        (kind.convert span (span.slice source) table).value.Every holds) :
    Form.EveryOf holds (convertAll source symbols phrases).value := by
  match phrases with
  | [] => trivial
  | phrase :: rest =>
    refine ⟨every_convert source symbols phrase lists quotes ?_,
      everyOf_convertAll source _ rest lists quotes ?_⟩
    · exact fun kind span table member => leaves kind span table (List.mem_append_left _ member)
    · exact fun kind span table member => leaves kind span table (List.mem_append_right _ member)

end

end Phrase

/-- Whether a form may be read from the tokens of a text: the contents of strings are text, and what
is unreadable is an error token or an integer out of range. -/
def Form.OfText (source : List UInt8) : Form → Prop
  | .string _ contents => Text.IsText contents
  | .error span => ∃ token ∈ Scanner.tokens source, token.span = span ∧
      (token.kind = .error ∨
        token.kind = .integer ∧ Numeral.readInt64? (token.lexeme source) = none)
  | .list _ _ | .quote _ _ | .symbol _ _ | .integer _ _ | .float _ _ => True

/-- What a leaf of a text is read as. -/
theorem LeafKind.ofText_convert {text : String} (kind : LeafKind) (span : Span)
    (symbols : SymbolTable)
    (listed : ⟨kind.tokenKind, span⟩ ∈ Scanner.tokens (Text.bytes text)) :
    (kind.convert span (span.slice (Text.bytes text)) symbols).value.Every
      (Form.OfText (Text.bytes text)) := by
  obtain ⟨-, -, lexeme⟩ := Scanner.isText_lexeme listed
  have admits := (Scanner.scanned_tokens (Text.bytes text)).admits _ listed kind rfl
  cases kind with
  | atom =>
    obtain ⟨name, found⟩ := lexeme
    simp only [Token.lexeme] at found
    simp only [convert, found]
    trivial
  | integer =>
    simp only [convert]
    cases found : Numeral.readInt64? (span.slice (Text.bytes text)) with
    | some value => trivial
    | none => exact ⟨_, listed, rfl, .inr ⟨rfl, found⟩⟩
  | float =>
    obtain ⟨value, found⟩ := admits.exists_read?
    simp only [Token.lexeme] at found
    simp only [convert, found]
    trivial
  | string =>
    rw [Scanner.tokens_eq_cut] at listed
    obtain ⟨reported, member, same⟩ := List.mem_map.mp listed
    obtain ⟨inner, -, parts⟩ := @Scanner.exists_quotable [] _ _ member (by rw [same]; rfl)
    rw [same, List.nil_append] at parts
    rw [parts] at lexeme
    change Text.IsText (Escape.literalContents (Token.lexeme ⟨.string, span⟩ (Text.bytes text)))
    rw [show Token.lexeme ⟨.string, span⟩ (Text.bytes text) = _ from parts,
      Escape.literalContents_marks]
    exact Escape.isText_decode_of_marks lexeme
  | error => exact ⟨_, listed, rfl, .inl rfl⟩

namespace Cause

/-- Only this cause is worded so. -/
theorem eq_symbolNotUtf8 {cause : Cause} (same : cause.message = symbolNotUtf8.message) :
    cause = .symbolNotUtf8 := by
  cases cause with
  | strayByte byte =>
    have first := head?_message_strayByte byte
    have other : symbolNotUtf8.message.toList.head? = some 's' := by decide +kernel
    rw [same, other] at first
    cases first
  | symbolNotUtf8 => rfl
  | _ => exact absurd same (by decide +kernel)

end Cause

namespace Session

/-- No name of a text is reported not to be text. -/
theorem cause_ne_symbolNotUtf8 {session : Session} {arena : Arena} {text : String}
    {findings : List Finding} {size taken : Nat}
    (told : TokenFeed.Told (Text.bytes text) size taken
      (session.converted arena (Text.bytes text)) findings) :
    ∀ finding ∈ findings, finding.cause ≠ .symbolNotUtf8 := by
  intro finding member refused
  have about : finding ∈ findings.filter (!·.cause.isLexical) :=
    List.mem_filter.mpr ⟨member, by rw [refused]; rfl⟩
  rw [told.others] at about
  obtain ⟨token, converted, found⟩ := List.mem_flatMap.mp about
  obtain ⟨-, -, name, lexeme⟩ := Scanner.isText_lexeme (mem_tokens_of_mem_converted converted)
  obtain ⟨kind, span⟩ := token
  cases kind with
  | atom =>
    simp only [Token.conversions, lexeme] at found
    cases found
  | integer =>
    simp only [Token.conversions] at found
    split at found
    · cases found
    · rw [List.mem_singleton.mp found] at refused
      cases refused
  | leftParen | rightParen | quote | float | string | endOfInput | error => cases found

/-- A source that is text is cut between its characters, so that every lexeme is text. When it is
read the contents of every string are text, an unreadable form is an error token or an integer out
of range, and whatever comes of the read, it is not reported that a name is not text. -/
theorem read_of_text (session : Session) (arena : Arena) (text : String) :
    let source := Text.bytes text
    let reading := session.read arena source
    (∀ token ∈ Scanner.tokens source,
      String.Pos.Raw.IsValid text ⟨token.span.start⟩ ∧
        String.Pos.Raw.IsValid text ⟨token.span.stop⟩ ∧
        ∃ lexeme, Text.ofBytes? (token.lexeme source) = some lexeme) ∧
      (∀ tree, reading.result = .ok tree →
        (∀ span contents, .string span contents ∈ tree.walk →
          ∃ decoded, Text.ofBytes? contents = some decoded) ∧
        ∀ span, .error span ∈ tree.walk → ∃ token ∈ Scanner.tokens source, token.span = span ∧
          (token.kind = .error ∨
            token.kind = .integer ∧ Numeral.readInt64? (token.lexeme source) = none)) ∧
      ∃ reported, reading.session.diagnostics = session.diagnostics ++ reported ∧
        ∀ diagnostic ∈ reported, diagnostic.message ≠ Cause.symbolNotUtf8.message := by
  intro source reading
  refine ⟨fun token => Scanner.isText_lexeme, fun tree succeeds => ?_, ?_⟩
  · obtain ⟨phrases, derives, rfl, -⟩ := gives_of_read succeeds
    have every : Form.EveryOf (Form.OfText source)
        (Phrase.convertAll source session.symbols phrases).value := by
      refine Phrase.everyOf_convertAll source _ phrases (fun _ _ => trivial) (fun _ _ => trivial)
        fun kind span table member => ?_
      exact kind.ofText_convert span table (derives.tokens ▸ List.mem_append_left _ member)
    have held := (Form.forall_mem_walk _).mpr every
    exact ⟨fun span contents member => held _ member, fun span member => held _ member⟩
  · obtain ⟨findings, reported, told⟩ := session.told_read arena source
    refine ⟨_, reported, fun diagnostic member same => ?_⟩
    obtain ⟨finding, found, rfl⟩ := List.mem_map.mp member
    exact cause_ne_symbolNotUtf8 told finding found (Cause.eq_symbolNotUtf8 same)

/-- A string with a backslash in front of a character of two bytes: only the backslash is taken
away, and what is left is that character. -/
theorem read_of_text_escaped_accent :
    let session : Session := .create .default
    let arena : Arena := ⟨Arena.blockAddress, 512, 0, by decide, by decide, by decide⟩
    let text := "\"\\é\""
    let reading := session.read arena (Text.bytes text)
    reading.result = .ok ⟨[.string ⟨0, 5⟩ [0xC3, 0xA9]]⟩ ∧
      (∃ decoded, Text.ofBytes? [0xC3, 0xA9] = some decoded) ∧
      String.Pos.Raw.IsValid text ⟨5⟩ := by
  intro session arena text reading
  have bytes : Text.bytes text = [Byte.quotationMark, Byte.backslash, 0xC3, 0xA9,
      Byte.quotationMark] := by decide
  have cut : Scanner.cut 0 (Text.bytes text) = [⟨⟨.string, ⟨0, 5⟩⟩, []⟩, ⟨.endOfInput 5, []⟩] := by
    have fits : TokenKind.Fits .string (Text.bytes text) [] :=
      ⟨_, .escaped 0xC3 (.plain (by decide) (by decide) .nil), bytes⟩
    have first := Scanner.cut_token .string 0 fits
    rw [List.append_nil, Scanner.cut_nil, bytes] at first
    rw [bytes]
    exact first
  have listed : ⟨.string, ⟨0, 5⟩⟩ ∈ Scanner.tokens (Text.bytes text) := by
    rw [Scanner.tokens_eq_cut, cut]
    exact List.mem_cons_self
  have derives : Phrase.Derives session.settings.depthLimit (Text.bytes text)
      [.leaf .string ⟨0, 5⟩] := by
    refine ⟨by simp, ?_, Nat.zero_le _, trivial⟩
    rw [Scanner.tokens_eq_cut, cut, bytes]
    rfl
  have result : reading.result = .ok ⟨[.string ⟨0, 5⟩ [0xC3, 0xA9]]⟩ := by
    have gives := (@gives_of_derives session arena _ _ (by rw [bytes]; decide) derives
      (.inl (by rw [bytes]; decide))).result
    rw [bytes] at gives
    exact gives
  obtain ⟨tokens, forms, -⟩ := read_of_text session arena text
  refine ⟨result, (forms _ result).1 ⟨0, 5⟩ _ ?_, (tokens _ listed).2.1⟩
  simp [Tree.walk, Form.walk]

end Session

end LispReader

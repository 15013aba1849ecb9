import LispReader.Proofs.ChunkInvariance
import LispReader.Proofs.Lexemes

/-!
# The lexical grammar

What a piece of a source is can be said without saying how it is found: by its own bytes and by a
condition on the bytes after it, which keeps it from going on. Every source starts with exactly one
piece that fits in this way, and that is the one that is cut off. So a source has exactly one row of
tokens that the grammar admits, and a full scan writes that row, with one finding for each of its
error tokens.
-/

namespace LispReader

/-! ## What fits in front of a source -/

namespace Byte

/-- Whether no blank, comment, mark, string, name, number or run of points starts with the byte. -/
def isStray (byte : UInt8) : Bool :=
  !isBlank byte && !isSymbol byte &&
    !([leftParen, rightParen, apostrophe, semicolon, quotationMark, point].contains byte)

end Byte

namespace Lexeme

/-- What may stand between the quotation marks of a string literal: plain bytes, and backslashes
with the bytes that they escape. -/
inductive Quotable : List UInt8 → Prop where
  | nil : Quotable []
  | plain {byte : UInt8} {rest : List UInt8} (mark : byte ≠ Byte.quotationMark)
      (escape : byte ≠ Byte.backslash) (quotable : Quotable rest) : Quotable (byte :: rest)
  | escaped (byte : UInt8) {rest : List UInt8} (quotable : Quotable rest) :
      Quotable (Byte.backslash :: byte :: rest)

end Lexeme

open Lexeme

/-- Whether `lexeme` is a token of the kind when `rest` comes after it. -/
def TokenKind.Fits (kind : TokenKind) (lexeme rest : List UInt8) : Prop :=
  match kind with
  | .leftParen => lexeme = [Byte.leftParen]
  | .rightParen => lexeme = [Byte.rightParen]
  | .quote => lexeme = [Byte.apostrophe]
  | .atom => Byte.isName lexeme = true ∧ Ends Byte.isSymbol rest
  | .integer => IsInteger lexeme ∧ Ends Byte.isSymbol rest ∧ ¬ OpensFraction rest
  | .float => IsFloat lexeme ∧ Ends Byte.isSymbol rest
  | .string => ∃ contents, Quotable contents ∧
      lexeme = Byte.quotationMark :: (contents ++ [Byte.quotationMark])
  | .endOfInput | .error => False

/-- Whether `lexeme` is an error token with the cause when `rest` comes after it: a string that
nothing closes, a number that goes on as long as it can with all symbol bytes glued to it, a point
with all points and digits after it, or a byte with which nothing starts. -/
def Cause.Fits (cause : Cause) (lexeme rest : List UInt8) : Prop :=
  match cause with
  | .unterminatedString => rest = [] ∧ ∃ body, lexeme = Byte.quotationMark :: body ∧
      ∀ contents after, Quotable contents → body ≠ contents ++ Byte.quotationMark :: after
  | .malformedNumber =>
      (∃ number tail, lexeme = number ++ tail ∧ (IsInteger number ∨ IsFloat number) ∧
        Ends Byte.isDigit tail ∧ tail ≠ [] ∧ tail.all Byte.isSymbol = true ∧
        Ends Byte.isSymbol rest) ∨
      ∃ run, lexeme = Byte.point :: run ∧ run ≠ [] ∧ run.all Byte.isPointOrDigit = true ∧
        Ends Byte.isPointOrDigit rest
  | .lonePoint => lexeme = [Byte.point] ∧ Ends Byte.isPointOrDigit rest
  | .strayByte byte => lexeme = [byte] ∧ Byte.isStray byte = true
  | .symbolNotUtf8 | .integerOutOfRange | .floatNotDecimal => False

/-- Whether `lexeme` is the piece when `rest` comes after it. -/
def Piece.Fits (piece : Piece) (lexeme rest : List UInt8) : Prop :=
  match piece with
  | .trivia =>
      (lexeme ≠ [] ∧ lexeme.all Byte.isBlank = true ∧ Ends Byte.isBlank rest) ∨
      ∃ run, lexeme = Byte.semicolon :: run ∧ run.all (· != Byte.newline) = true ∧
        Ends (· != Byte.newline) rest
  | .token kind => kind.Fits lexeme rest
  | .malformed cause => cause.Fits lexeme rest

/-! ## Facts about lexemes -/

namespace Lexeme

/-- What no symbol byte continues no digit continues. -/
theorem Ends.isDigit {rest : List UInt8} (stop : Ends Byte.isSymbol rest) :
    Ends Byte.isDigit rest :=
  fun byte first => Byte.isDigit_of_isSymbol (stop byte first)

/-- A run that is not empty ends with what ends all of it. -/
theorem Ends.append {keep : UInt8 → Bool} {run : List UInt8} (stop : Ends keep run)
    (nonempty : run ≠ []) (rest : List UInt8) : Ends keep (run ++ rest) := by
  obtain ⟨byte, others, rfl⟩ := List.exists_cons_of_ne_nil nonempty
  exact stop

/-- A run of symbol bytes opens no fraction. -/
theorem not_opensFraction_append {run : List UInt8} (symbols : run.all Byte.isSymbol = true)
    (nonempty : run ≠ []) (rest : List UInt8) : ¬ OpensFraction (run ++ rest) := by
  obtain ⟨byte, others, rfl⟩ := List.exists_cons_of_ne_nil nonempty
  rintro ⟨digit, after, parts, -⟩
  cases (List.cons.inj parts).1
  cases symbols

/-- What neither a symbol byte nor a point continues opens no fraction. -/
theorem not_opensFraction_of_delimits {rest : List UInt8} (delimits : Byte.Delimits rest) :
    ¬ OpensFraction rest := by
  rintro ⟨digit, after, rfl, -⟩
  exact (delimits Byte.point rfl).2 rfl

/-- An integer is not empty. -/
theorem IsInteger.ne_nil {lexeme : List UInt8} (shaped : IsInteger lexeme) : lexeme ≠ [] := by
  obtain ⟨sign, whole, rfl, -, numeral⟩ := shaped
  obtain ⟨first, others, rfl, -⟩ := Piece.exists_of_isNumeral numeral
  simp

/-- A float is not empty. -/
theorem IsFloat.ne_nil {lexeme : List UInt8} (shaped : IsFloat lexeme) : lexeme ≠ [] := by
  obtain ⟨sign, whole, fraction, rfl, -⟩ := shaped
  simp

end Lexeme

/-- A leaf with the lexeme of its kind fits before what continues neither a name nor a number. -/
theorem LeafKind.fits_of_admits {kind : LeafKind} {lexeme rest : List UInt8}
    (admits : kind.Admits lexeme) (shaped : kind ≠ .string ∧ kind ≠ .error)
    (delimits : Byte.Delimits rest) : kind.tokenKind.Fits lexeme rest := by
  have stop : Ends Byte.isSymbol rest := fun byte first => (delimits byte first).1
  cases kind with
  | atom => exact ⟨admits, stop⟩
  | integer => exact ⟨admits, stop, not_opensFraction_of_delimits delimits⟩
  | float => exact ⟨admits, stop⟩
  | string => exact absurd rfl shaped.1
  | error => exact absurd rfl shaped.2

/-- The lexeme of a leaf that fits looks like its kind. -/
theorem LeafKind.admits_of_fits {kind : LeafKind} {lexeme rest : List UInt8}
    (fits : kind.tokenKind.Fits lexeme rest) : kind.Admits lexeme := by
  cases kind with
  | atom | integer | float => exact fits.1
  | string | error => trivial

namespace Piece

/-! ## Strings -/

/-- A quotation mark closes a literal. -/
theorem closingLength?_mark (rest : List UInt8) :
    closingLength? (Byte.quotationMark :: rest) = some 1 := by
  rw [closingLength?.eq_def]
  rfl

/-- A backslash and the byte after it do not close a literal. -/
theorem closingLength?_backslash (letter : UInt8) (rest : List UInt8) :
    closingLength? (Byte.backslash :: letter :: rest) = (closingLength? rest).map (· + 2) := by
  rw [closingLength?.eq_def]
  rfl

/-- No other byte closes a literal. -/
theorem closingLength?_of_ne {byte : UInt8} (mark : byte ≠ Byte.quotationMark)
    (escape : byte ≠ Byte.backslash) (rest : List UInt8) :
    closingLength? (byte :: rest) = (closingLength? rest).map (· + 1) := by
  rw [closingLength?.eq_def]
  simp only [beq_eq_false_iff_ne.mpr mark, beq_eq_false_iff_ne.mpr escape, Bool.false_eq_true,
    if_false]

/-- The quotation mark after the contents of a literal closes it. -/
theorem closingLength?_append {contents : List UInt8} (quotable : Quotable contents)
    (rest : List UInt8) :
    closingLength? (contents ++ Byte.quotationMark :: rest) = some (contents.length + 1) := by
  induction quotable with
  | nil => exact closingLength?_mark rest
  | plain mark escape quotable ih =>
    rw [List.cons_append, closingLength?_of_ne mark escape, ih]
    rfl
  | escaped byte quotable ih =>
    rw [List.cons_append, List.cons_append, closingLength?_backslash, ih]
    rfl

/-- A literal that is closed has contents before the quotation mark. -/
theorem exists_of_closingLength? {input : List UInt8} {length : Nat}
    (closed : closingLength? input = some length) :
    ∃ contents rest, Quotable contents ∧ input = contents ++ Byte.quotationMark :: rest := by
  fun_induction closingLength? input generalizing length with
  | case1 => cases closed
  | case2 byte rest mark => exact ⟨[], rest, .nil, by rw [beq_iff_eq.mp mark]; rfl⟩
  | case3 => cases closed
  | case4 byte mark escape letter after ih =>
    obtain ⟨inner, found, -⟩ := Option.map_eq_some_iff.mp closed
    obtain ⟨contents, rest, quotable, rfl⟩ := ih found
    exact ⟨byte :: letter :: contents, rest, beq_iff_eq.mp escape ▸ .escaped letter quotable, rfl⟩
  | case5 byte rest mark escape ih =>
    obtain ⟨inner, found, -⟩ := Option.map_eq_some_iff.mp closed
    obtain ⟨contents, rest, quotable, rfl⟩ := ih found
    exact ⟨byte :: contents, rest, .plain (by simpa using mark) (by simpa using escape) quotable,
      rfl⟩

/-- Nothing closes a literal exactly if no contents of one stand before a quotation mark. -/
theorem closingLength?_eq_none {input : List UInt8} :
    closingLength? input = none ↔
      ∀ contents after, Quotable contents → input ≠ contents ++ Byte.quotationMark :: after := by
  constructor
  · rintro unclosed contents after quotable rfl
    rw [closingLength?_append quotable] at unclosed
    cases unclosed
  · intro unclosed
    cases closed : closingLength? input with
    | none => rfl
    | some length =>
      obtain ⟨contents, after, quotable, parts⟩ := exists_of_closingLength? closed
      exact absurd parts (unclosed contents after quotable)

/-! ## First pieces by their first byte -/

/-- A blank is passed over, and so are the blanks after it. -/
theorem leading_blank {byte : UInt8} (blank : Byte.isBlank byte = true) (rest : List UInt8) :
    leading (byte :: rest) = (.trivia, (rest.takeWhile Byte.isBlank).length + 1) := by
  rcases Byte.eq_of_isBlank blank with rfl | rfl | rfl | rfl | rfl | rfl <;> rfl

/-- A comment is passed over. -/
theorem leading_semicolon (rest : List UInt8) :
    leading (Byte.semicolon :: rest) =
      (.trivia, (rest.takeWhile (· != Byte.newline)).length + 1) := rfl

/-- A quotation mark is read with the string that it opens, or with all that follows. -/
theorem leading_quotationMark (rest : List UInt8) :
    leading (Byte.quotationMark :: rest) =
      match closingLength? rest with
      | some length => (.token .string, length + 1)
      | none => (.malformed .unterminatedString, rest.length + 1) := rfl

/-- A point is read with the points and digits after it. -/
theorem leading_point (rest : List UInt8) :
    leading (Byte.point :: rest) =
      match rest.takeWhile Byte.isPointOrDigit with
      | [] => (.malformed .lonePoint, 1)
      | tail@(_ :: _) => (.malformed .malformedNumber, tail.length + 1) := by
  have unnumbered : numberLength? (Byte.point :: rest) = none := by
    rw [numberLength?_eq_none]
    cases rest <;> rfl
  have other : leading (Byte.point :: rest) =
      match numberLength? (Byte.point :: rest) with
      | some length => ofNumber (Byte.point :: rest) length
      | none => ofOther Byte.point rest := rfl
  rw [other, unnumbered]
  rfl

/-- A stray byte is read by itself. -/
theorem leading_stray {byte : UInt8} (stray : Byte.isStray byte = true) (rest : List UInt8) :
    leading (byte :: rest) = (.malformed (.strayByte byte), 1) := by
  simp only [Byte.isStray, Bool.and_eq_true, Bool.not_eq_true', List.contains_cons,
    Bool.or_eq_false_iff, List.contains_nil] at stray
  obtain ⟨⟨blank, symbol⟩, left, right, apostrophe, semicolon, mark, point, -⟩ := stray
  have digit := Byte.isDigit_of_isSymbol symbol
  have sign : Byte.isSign byte = false := by
    rw [Bool.eq_false_iff]
    intro sign
    rw [Byte.isSymbol_of_isSign sign] at symbol
    cases symbol
  have unnumbered : numberLength? (byte :: rest) = none := by
    rw [numberLength?_eq_none]
    cases rest <;> simp [Byte.opensNumber, digit, sign]
  simp [leading, ofOther, blank, symbol, left, right, apostrophe, semicolon, mark, point,
    unnumbered]

/-- A piece that starts with a symbol byte is a number or a name. -/
theorem leading_of_isSymbol {byte : UInt8} (symbol : Byte.isSymbol byte = true)
    (rest : List UInt8) :
    leading (byte :: rest) =
      match numberLength? (byte :: rest) with
      | some length => ofNumber (byte :: rest) length
      | none => (.token .atom, (rest.takeWhile Byte.isSymbol).length + 1) := by
  have other (special : UInt8) (unnamed : Byte.isSymbol special = false) :
      (byte == special) = false := by
    rw [beq_eq_false_iff_ne]
    rintro rfl
    rw [unnamed] at symbol
    cases symbol
  have blank : Byte.isBlank byte = false := by
    cases found : Byte.isBlank byte with
    | false => rfl
    | true =>
      rw [Byte.isSymbol_of_isBlank found] at symbol
      cases symbol
  simp only [leading, other Byte.leftParen rfl, other Byte.rightParen rfl,
    other Byte.apostrophe rfl, other Byte.semicolon rfl, other Byte.quotationMark rfl, blank,
    ofOther, symbol]
  rfl

/-! ## Numbers and names -/

/-- The first byte of a number may stand in a name. -/
theorem exists_of_signs {sign whole : List UInt8} (signs : Signs sign)
    (numeral : Numeral.isNumeral whole = true) (rest : List UInt8) :
    ∃ byte others, sign ++ (whole ++ rest) = byte :: others ∧ Byte.isSymbol byte = true := by
  obtain ⟨first, others, rfl, digit⟩ := exists_of_isNumeral numeral
  rcases signs with rfl | ⟨byte, rfl, isSign⟩
  · exact ⟨first, others ++ rest, rfl, Byte.isSymbol_of_isDigit digit⟩
  · exact ⟨byte, first :: (others ++ rest), rfl, Byte.isSymbol_of_isSign isSign⟩

/-- A number in front is a piece, together with the symbol bytes that spoil it. -/
theorem leading_of_isLongest {number rest : List UInt8} (longest : IsLongest number rest) :
    leading (number ++ rest) =
      match rest.takeWhile Byte.isSymbol with
      | [] => (.token (if number.contains Byte.point then .float else .integer), number.length)
      | tail@(_ :: _) => (.malformed .malformedNumber, number.length + tail.length) := by
  have length := numberLength?_of_isLongest longest
  obtain ⟨sign, whole, after, parts, signs, numeral, -⟩ := exists_of_numberLength? length
  obtain ⟨byte, others, first, symbol⟩ := exists_of_signs signs numeral after
  have starts : number ++ rest = byte :: others := parts.trans first
  rw [starts] at length ⊢
  rw [leading_of_isSymbol symbol, length, ← starts]
  cases tail : rest.takeWhile Byte.isSymbol with
  | nil => simp [ofNumber, tail]
  | cons next glued => simp [ofNumber, tail]

/-- A number that goes on as long as it can is a token if no symbol byte is glued to it. -/
theorem leading_number {number rest : List UInt8} (longest : IsLongest number rest)
    (stop : Ends Byte.isSymbol rest) :
    leading (number ++ rest) =
      (.token (if number.contains Byte.point then .float else .integer), number.length) := by
  rw [leading_of_isLongest longest, takeWhile_of_stop stop]

/-- A name that no symbol byte continues is a token. -/
theorem leading_name {lexeme rest : List UInt8} (named : Byte.isName lexeme = true)
    (stop : Ends Byte.isSymbol rest) :
    leading (lexeme ++ rest) = (.token .atom, lexeme.length) := by
  simp only [Byte.isName, Bool.and_eq_true, Bool.not_eq_true', List.isEmpty_eq_false_iff] at named
  obtain ⟨⟨nonempty, kept⟩, plain⟩ := named
  obtain ⟨byte, others, rfl⟩ := List.exists_cons_of_ne_nil nonempty
  rw [List.all_cons, Bool.and_eq_true] at kept
  have unnumbered : numberLength? (byte :: (others ++ rest)) = none := by
    rw [numberLength?_eq_none]
    match others, rest with
    | [], [] => exact plain
    | [], next :: after =>
      have digitless := Byte.isDigit_of_isSymbol (stop next rfl)
      simpa [Byte.opensNumber, digitless] using plain
    | next :: after, rest => exact plain
  rw [List.cons_append, leading_of_isSymbol kept.1, unnumbered,
    takeWhile_append_of_stop kept.2 stop]
  rfl

/-- A run of symbol bytes in front of a source that starts with no number is a name. -/
theorem isName_of_numberLength? {byte : UInt8} {run rest : List UInt8}
    (symbol : Byte.isSymbol byte = true) (kept : run.all Byte.isSymbol = true)
    (unnumbered : numberLength? (byte :: (run ++ rest)) = none) :
    Byte.isName (byte :: run) = true := by
  have plain : Byte.opensNumber (byte :: run) = false := by
    rw [numberLength?_eq_none] at unnumbered
    match run, rest with
    | [], [] => exact unnumbered
    | [], next :: after =>
      simp only [List.nil_append, Byte.opensNumber, Bool.or_eq_false_iff] at unnumbered
      exact unnumbered.1
    | next :: after, rest => exact unnumbered
  simp [Byte.isName, plain, symbol, kept]

/-! ## The piece that fits -/

/-- A piece that fits is the first piece. -/
theorem leading_of_fits {piece : Piece} {lexeme rest : List UInt8}
    (fits : piece.Fits lexeme rest) : leading (lexeme ++ rest) = (piece, lexeme.length) := by
  match piece with
  | .trivia =>
    rcases fits with ⟨nonempty, blank, stop⟩ | ⟨run, rfl, inside, stop⟩
    · obtain ⟨byte, run, rfl⟩ := List.exists_cons_of_ne_nil nonempty
      rw [List.all_cons, Bool.and_eq_true] at blank
      rw [List.cons_append, leading_blank blank.1, takeWhile_append_of_stop blank.2 stop]
      rfl
    · rw [List.cons_append, leading_semicolon, takeWhile_append_of_stop inside stop]
      rfl
  | .token .leftParen | .token .rightParen | .token .quote =>
    cases fits
    rfl
  | .token .atom => exact leading_name fits.1 fits.2
  | .token .integer =>
    obtain ⟨shaped, stop, plain⟩ := fits
    rw [leading_number (.inl ⟨shaped, stop.isDigit, plain⟩) stop,
      contains_point_of_isInteger shaped]
    rfl
  | .token .float =>
    obtain ⟨shaped, stop⟩ := fits
    rw [leading_number (.inr ⟨shaped, stop.isDigit⟩) stop, contains_point_of_isFloat shaped]
    rfl
  | .token .string =>
    obtain ⟨contents, quotable, rfl⟩ := fits
    simp only [List.cons_append, List.append_assoc, List.nil_append, leading_quotationMark,
      closingLength?_append quotable, List.length_cons, List.length_append, List.length_nil]
  | .malformed .unterminatedString =>
    obtain ⟨rfl, body, rfl, unclosed⟩ := fits
    rw [List.append_nil, leading_quotationMark, closingLength?_eq_none.mpr unclosed]
    rfl
  | .malformed .malformedNumber =>
    rcases fits with ⟨number, tail, rfl, shaped, undigited, nonempty, symbols, stop⟩ |
      ⟨run, rfl, nonempty, inside, stop⟩
    · have longest : IsLongest number (tail ++ rest) := by
        have digitless := undigited.append nonempty rest
        rcases shaped with integer | float
        · exact .inl ⟨integer, digitless, not_opensFraction_append symbols nonempty rest⟩
        · exact .inr ⟨float, digitless⟩
      rw [List.append_assoc, leading_of_isLongest longest, takeWhile_append_of_stop symbols stop,
        List.length_append]
      obtain ⟨byte, others, rfl⟩ := List.exists_cons_of_ne_nil nonempty
      rfl
    · rw [List.cons_append, leading_point, takeWhile_append_of_stop inside stop]
      obtain ⟨byte, others, rfl⟩ := List.exists_cons_of_ne_nil nonempty
      rfl
  | .malformed .lonePoint =>
    obtain ⟨rfl, stop⟩ := fits
    rw [List.singleton_append, leading_point, takeWhile_of_stop stop]
    rfl
  | .malformed (.strayByte byte) =>
    obtain ⟨rfl, stray⟩ := fits
    exact leading_stray stray rest

/-- A source that starts with a number starts with one that fits, alone or with the symbol bytes
that spoil it. -/
theorem exists_fits_of_isLongest {number rest : List UInt8} (longest : IsLongest number rest) :
    ∃ piece lexeme after, number ++ rest = lexeme ++ after ∧ lexeme ≠ [] ∧
      Fits piece lexeme after := by
  obtain ⟨after, parts, kept, stop⟩ := exists_takeWhile Byte.isSymbol rest
  generalize rest.takeWhile Byte.isSymbol = tail at parts kept
  subst parts
  by_cases clean : tail = []
  · subst clean
    rcases longest with ⟨shaped, -, plain⟩ | ⟨shaped, -⟩
    · exact ⟨.token .integer, number, after, rfl, shaped.ne_nil, shaped, stop, plain⟩
    · exact ⟨.token .float, number, after, rfl, shaped.ne_nil, shaped, stop⟩
  · have undigited (ends : Ends Byte.isDigit (tail ++ after)) : Ends Byte.isDigit tail := by
      obtain ⟨byte, others, rfl⟩ := List.exists_cons_of_ne_nil clean
      exact ends
    refine ⟨.malformed .malformedNumber, number ++ tail, after, (List.append_assoc _ _ _).symm,
      by simp [clean], .inl ⟨number, tail, rfl, ?_, ?_, clean, kept, stop⟩⟩
    · exact longest.imp And.left And.left
    · rcases longest with ⟨-, digitless, -⟩ | ⟨-, digitless⟩ <;> exact undigited digitless

/-- Every source starts with a piece that fits. -/
theorem exists_fits {input : List UInt8} (nonempty : input ≠ []) :
    ∃ piece lexeme rest, input = lexeme ++ rest ∧ lexeme ≠ [] ∧ Fits piece lexeme rest := by
  cases number : numberLength? input with
  | some length =>
    obtain ⟨number, rest, rfl, longest⟩ := exists_isLongest number
    exact exists_fits_of_isLongest longest
  | none =>
    obtain ⟨byte, rest, rfl⟩ := List.exists_cons_of_ne_nil nonempty
    -- A run of bytes of one class from the second byte on ends where the class does.
    have runs (keep : UInt8 → Bool) : ∃ run after, rest = run ++ after ∧ run.all keep = true ∧
        Ends keep after := by
      obtain ⟨after, parts, kept, stop⟩ := exists_takeWhile keep rest
      exact ⟨_, after, parts, kept, stop⟩
    by_cases left : byte = Byte.leftParen
    · exact ⟨.token .leftParen, [byte], rest, rfl, by simp, by rw [left]; rfl⟩
    by_cases right : byte = Byte.rightParen
    · exact ⟨.token .rightParen, [byte], rest, rfl, by simp, by rw [right]; rfl⟩
    by_cases apostrophe : byte = Byte.apostrophe
    · exact ⟨.token .quote, [byte], rest, rfl, by simp, by rw [apostrophe]; rfl⟩
    by_cases semicolon : byte = Byte.semicolon
    · obtain ⟨run, after, rfl, inside, stop⟩ := runs (· != Byte.newline)
      exact ⟨.trivia, byte :: run, after, rfl, by simp, .inr ⟨run, by rw [semicolon], inside, stop⟩⟩
    by_cases mark : byte = Byte.quotationMark
    · subst mark
      cases closed : closingLength? rest with
      | some length =>
        obtain ⟨contents, after, quotable, rfl⟩ := exists_of_closingLength? closed
        exact ⟨.token .string, Byte.quotationMark :: (contents ++ [Byte.quotationMark]), after,
          by simp, by simp, contents, quotable, rfl⟩
      | none =>
        exact ⟨.malformed .unterminatedString, Byte.quotationMark :: rest, [], by simp, by simp,
          rfl, rest, rfl, closingLength?_eq_none.mp closed⟩
    by_cases point : byte = Byte.point
    · subst point
      obtain ⟨run, after, rfl, inside, stop⟩ := runs Byte.isPointOrDigit
      by_cases alone : run = []
      · subst alone
        exact ⟨.malformed .lonePoint, [Byte.point], after, rfl, by simp, rfl, stop⟩
      · exact ⟨.malformed .malformedNumber, Byte.point :: run, after, rfl, by simp,
          .inr ⟨run, rfl, alone, inside, stop⟩⟩
    cases blank : Byte.isBlank byte with
    | true =>
      obtain ⟨run, after, rfl, inside, stop⟩ := runs Byte.isBlank
      exact ⟨.trivia, byte :: run, after, rfl, by simp, .inl ⟨by simp, by simp [blank, inside],
        stop⟩⟩
    | false =>
      cases symbol : Byte.isSymbol byte with
      | true =>
        obtain ⟨run, after, rfl, kept, stop⟩ := runs Byte.isSymbol
        exact ⟨.token .atom, byte :: run, after, rfl, by simp,
          isName_of_numberLength? symbol kept number, stop⟩
      | false =>
        refine ⟨.malformed (.strayByte byte), [byte], rest, rfl, by simp, rfl, ?_⟩
        simp [Byte.isStray, blank, symbol, left, right, apostrophe, semicolon, mark, point]

/-- A source is its first piece, which fits, and what comes after it. -/
theorem exists_fits_leading {input : List UInt8} (nonempty : input ≠ []) :
    ∃ lexeme rest, input = lexeme ++ rest ∧ (leading input).2 = lexeme.length ∧
      (leading input).1.Fits lexeme rest := by
  obtain ⟨piece, lexeme, rest, rfl, -, fits⟩ := exists_fits nonempty
  rw [leading_of_fits fits]
  exact ⟨lexeme, rest, rfl, rfl, fits⟩

end Piece

/-! ## Cutting pieces off -/

namespace Scanner

/-- A piece that fits is cut off as its token, with what is found wrong with it. -/
theorem cut_of_fits (piece : Piece) {kind : TokenKind} {lexeme rest : List UInt8} (position : Nat)
    (fits : piece.Fits lexeme rest) (known : piece.kind? = some kind) :
    cut position (lexeme ++ rest) =
      ⟨⟨kind, ⟨position, position + lexeme.length⟩⟩,
        piece.findings ⟨position, position + lexeme.length⟩⟩ ::
        cut (position + lexeme.length) rest := by
  have found := Piece.leading_of_fits fits
  have proper : piece ≠ .trivia := by
    rintro rfl
    cases known
  have positive := Piece.length_pos_of_leading found proper
  have nonempty : lexeme ++ rest ≠ [] := by
    rw [← List.length_pos_iff, List.length_append]
    omega
  rw [cut_of_kind nonempty (by rw [found]; exact known), found, List.drop_left]
  simp only [ReportedToken.leading, found]

/-- A token that fits is cut off. -/
theorem cut_token (kind : TokenKind) {lexeme rest : List UInt8} (position : Nat)
    (fits : kind.Fits lexeme rest) :
    cut position (lexeme ++ rest) =
      ⟨⟨kind, ⟨position, position + lexeme.length⟩⟩, []⟩ ::
        cut (position + lexeme.length) rest :=
  cut_of_fits (.token kind) position fits rfl

/-- A left parenthesis is cut off. -/
theorem cut_leftParen (position : Nat) (rest : List UInt8) :
    cut position (Byte.leftParen :: rest) =
      ⟨⟨.leftParen, ⟨position, position + 1⟩⟩, []⟩ :: cut (position + 1) rest :=
  cut_token .leftParen position rfl

/-- A right parenthesis is cut off. -/
theorem cut_rightParen (position : Nat) (rest : List UInt8) :
    cut position (Byte.rightParen :: rest) =
      ⟨⟨.rightParen, ⟨position, position + 1⟩⟩, []⟩ :: cut (position + 1) rest :=
  cut_token .rightParen position rfl

/-- An apostrophe is cut off. -/
theorem cut_apostrophe (position : Nat) (rest : List UInt8) :
    cut position (Byte.apostrophe :: rest) =
      ⟨⟨.quote, ⟨position, position + 1⟩⟩, []⟩ :: cut (position + 1) rest :=
  cut_token .quote position rfl

/-- An error token that fits is cut off with its cause. -/
theorem cut_malformed (cause : Cause) {lexeme rest : List UInt8} (position : Nat)
    (fits : cause.Fits lexeme rest) :
    cut position (lexeme ++ rest) =
      ⟨⟨.error, ⟨position, position + lexeme.length⟩⟩,
        [⟨cause, ⟨position, position + lexeme.length⟩⟩]⟩ ::
        cut (position + lexeme.length) rest :=
  cut_of_fits (.malformed cause) position fits rfl

/-- Trivia that fits changes nothing but positions. -/
theorem cut_trivia (lexeme : List UInt8) {rest : List UInt8} (position : Nat)
    (nonempty : lexeme ≠ []) (fits : Piece.trivia.Fits lexeme rest) :
    cut position (lexeme ++ rest) = cut (position + lexeme.length) rest := by
  have found := Piece.leading_of_fits fits
  rw [cut_of_trivia (by simp [nonempty]) (by rw [found]; rfl), found, List.drop_left]

/-- A blank in front of a source changes nothing but positions. -/
theorem cut_blank {byte : UInt8} (blank : Byte.isBlank byte = true) (position : Nat)
    (rest : List UInt8) : cut position (byte :: rest) = cut (position + 1) rest := by
  obtain ⟨after, parts, kept, stop⟩ := Piece.exists_takeWhile Byte.isBlank rest
  generalize rest.takeWhile Byte.isBlank = run at parts kept
  subst parts
  have all_skipped := cut_trivia (byte :: run) position (by simp)
    (.inl ⟨by simp, by simp [blank, kept], stop⟩)
  rw [List.cons_append] at all_skipped
  rw [all_skipped]
  by_cases alone : run = []
  · rw [alone]
    rfl
  · rw [cut_trivia run (position + 1) alone (.inl ⟨alone, kept, stop⟩), List.length_cons]
    congr 1
    omega

/-- A comment changes nothing but positions. -/
theorem cut_comment {run rest : List UInt8} (position : Nat)
    (inside : run.all (· != Byte.newline) = true) (stop : Ends (· != Byte.newline) rest) :
    cut position (Byte.semicolon :: (run ++ rest)) = cut (position + (run.length + 1)) rest :=
  cut_trivia (Byte.semicolon :: run) position (by simp) (.inr ⟨run, rfl, inside, stop⟩)

/-- Blanks in a row in front of a source change nothing but positions. -/
theorem cut_blanks {run : List UInt8} (blank : run.all Byte.isBlank = true) (position : Nat)
    (rest : List UInt8) : cut position (run ++ rest) = cut (position + run.length) rest := by
  induction run generalizing position with
  | nil => rfl
  | cons byte run ih =>
    rw [List.all_cons, Bool.and_eq_true] at blank
    rw [List.cons_append, cut_blank blank.1, ih blank.2, List.length_cons]
    congr 1
    omega

/-- Induction on what is left of a source, where each piece fits before the others. -/
theorem fits_induction {motive : Nat → List UInt8 → Prop} (position : Nat) (input : List UInt8)
    (nil : ∀ position, motive position [])
    (piece : ∀ position piece lexeme rest, lexeme ≠ [] → Piece.Fits piece lexeme rest →
      motive (position + lexeme.length) rest → motive position (lexeme ++ rest)) :
    motive position input := by
  induction measured : input.length using Nat.strongRecOn generalizing position input with
  | _ size ih =>
    by_cases empty : input = []
    · rw [empty]
      exact nil position
    · obtain ⟨first, lexeme, rest, rfl, nonempty, fits⟩ := Piece.exists_fits empty
      have shorter : rest.length < size := by
        have := List.length_pos_iff.mpr nonempty
        rw [List.length_append] at measured
        omega
      exact piece position first lexeme rest nonempty fits (ih rest.length shorter _ rest rfl)

/-- A token that is neither an error nor the end of the input stands where it says and fits there. -/
theorem fits_of_mem_cut {source : List UInt8} {reported : ReportedToken}
    (member : reported ∈ cut 0 source) (inner : reported.token.kind ≠ .endOfInput)
    (proper : reported.token.kind ≠ .error) :
    ∃ rest, source.drop reported.token.span.start = reported.token.lexeme source ++ rest ∧
      reported.token.kind.Fits (reported.token.lexeme source) rest := by
  cases arises_of_mem_cut member with
  | ending => exact absurd rfl inner
  | malformed => exact absurd rfl proper
  | token skipped length kind found =>
    have nonempty : source.drop skipped ≠ [] := by
      intro nothing
      rw [nothing] at found
      cases found
    obtain ⟨lexeme, rest, parts, covered, fits⟩ := Piece.exists_fits_leading nonempty
    rw [found] at covered fits
    have inside : length = lexeme.length := covered
    have text : Token.lexeme ⟨kind, ⟨0 + skipped, 0 + skipped + length⟩⟩ source = lexeme := by
      simp [Token.lexeme, Span.slice, Span.length, parts, inside]
    rw [text, Nat.zero_add]
    exact ⟨rest, parts, fits⟩

/-- The lexeme of a leaf of a source looks like its kind. -/
theorem admits_of_mem_cut {source : List UInt8} {reported : ReportedToken} {kind : LeafKind}
    (member : reported ∈ cut 0 source) (known : reported.token.kind = kind.tokenKind) :
    kind.Admits (reported.token.lexeme source) := by
  by_cases unreadable : kind = .error
  · rw [unreadable]
    trivial
  · have proper : reported.token.kind ≠ .error := fun error =>
      unreadable (LeafKind.tokenKind_inj.mp (known.symm.trans error))
    have inner : reported.token.kind ≠ .endOfInput := by
      rw [known]
      cases kind <;> decide
    obtain ⟨rest, -, fits⟩ := fits_of_mem_cut member inner proper
    rw [known] at fits
    exact LeafKind.admits_of_fits fits

end Scanner

/-! ## The grammar of sources -/

/-- Whether `input`, which stands `position` bytes into a source, is made of the tokens, with the
findings about those that are errors. Blanks and comments are skipped. -/
inductive Lexes : Nat → List UInt8 → List Token → List Finding → Prop where
  | ending (position : Nat) : Lexes position [] [.endOfInput position] []
  | blank {position : Nat} {byte : UInt8} {rest : List UInt8} {tokens : List Token}
      {findings : List Finding} (blank : Byte.isBlank byte = true)
      (after : Lexes (position + 1) rest tokens findings) :
      Lexes position (byte :: rest) tokens findings
  | comment {position : Nat} {run rest : List UInt8} {tokens : List Token}
      {findings : List Finding} (inside : run.all (· != Byte.newline) = true)
      (stop : Ends (· != Byte.newline) rest)
      (after : Lexes (position + (run.length + 1)) rest tokens findings) :
      Lexes position (Byte.semicolon :: (run ++ rest)) tokens findings
  | token {position : Nat} {lexeme rest : List UInt8} {tokens : List Token}
      {findings : List Finding} (kind : TokenKind) (fits : kind.Fits lexeme rest)
      (after : Lexes (position + lexeme.length) rest tokens findings) :
      Lexes position (lexeme ++ rest)
        (⟨kind, ⟨position, position + lexeme.length⟩⟩ :: tokens) findings
  | malformed {position : Nat} {lexeme rest : List UInt8} {tokens : List Token}
      {findings : List Finding} (cause : Cause) (fits : cause.Fits lexeme rest)
      (after : Lexes (position + lexeme.length) rest tokens findings) :
      Lexes position (lexeme ++ rest)
        (⟨.error, ⟨position, position + lexeme.length⟩⟩ :: tokens)
        (⟨cause, ⟨position, position + lexeme.length⟩⟩ :: findings)

namespace Lexes

/-- Blanks in a row are skipped. -/
theorem blanks {position : Nat} {run rest : List UInt8} {tokens : List Token}
    {findings : List Finding} (blank : run.all Byte.isBlank = true)
    (after : Lexes (position + run.length) rest tokens findings) :
    Lexes position (run ++ rest) tokens findings := by
  induction run generalizing position with
  | nil => exact after
  | cons byte run ih =>
    rw [List.all_cons, Bool.and_eq_true] at blank
    rw [List.length_cons, Nat.add_comm run.length, ← Nat.add_assoc] at after
    exact .blank blank.1 (ih blank.2 after)

/-- The grammar admits what a source is cut into. -/
theorem of_cut (position : Nat) (input : List UInt8) :
    Lexes position input ((Scanner.cut position input).map ReportedToken.token)
      ((Scanner.cut position input).flatMap ReportedToken.findings) := by
  induction position, input using Scanner.fits_induction with
  | nil position =>
    rw [Scanner.cut_nil]
    exact .ending position
  | piece position piece lexeme rest nonempty fits after =>
    match piece with
    | .trivia =>
      rw [Scanner.cut_trivia lexeme position nonempty fits]
      rcases fits with ⟨-, blank, -⟩ | ⟨run, rfl, inside, stop⟩
      · exact blanks blank after
      · exact .comment inside stop after
    | .token kind =>
      rw [Scanner.cut_token kind position fits]
      exact .token kind fits after
    | .malformed cause =>
      rw [Scanner.cut_malformed cause position fits]
      exact .malformed cause fits after

/-- A source is cut into what the grammar admits. -/
theorem eq_cut {position : Nat} {input : List UInt8} {tokens : List Token}
    {findings : List Finding} (lexes : Lexes position input tokens findings) :
    tokens = (Scanner.cut position input).map ReportedToken.token ∧
      findings = (Scanner.cut position input).flatMap ReportedToken.findings := by
  induction lexes with
  | ending position =>
    rw [Scanner.cut_nil]
    exact ⟨rfl, rfl⟩
  | blank blank after ih =>
    rw [Scanner.cut_blank blank]
    exact ih
  | comment inside stop after ih =>
    rw [Scanner.cut_comment _ inside stop]
    exact ih
  | token kind fits after ih =>
    rw [Scanner.cut_token kind _ fits, List.map_cons, List.flatMap_cons, ← ih.1, ← ih.2]
    exact ⟨rfl, rfl⟩
  | malformed cause fits after ih =>
    rw [Scanner.cut_malformed cause _ fits, List.map_cons, List.flatMap_cons, ← ih.1, ← ih.2]
    exact ⟨rfl, rfl⟩

end Lexes

namespace Scanner

/-- A window with more free slots than the source has bytes takes a full scan. The grammar admits
exactly one row of tokens of a source: the one that a full scan writes, whose findings are those of
the scan. -/
theorem lexes_iff_scan (source : List UInt8) (window : Window Token) :
    let scan := (start source).scan window
    (source.length < window.room → scan.scanner.phase = .emittedEnd) ∧
    (scan.scanner.phase = .emittedEnd → ∀ (tokens : List Token) (findings : List Finding),
      Lexes 0 source tokens findings ↔
        tokens = scan.appended window ∧ findings = scan.findings) := by
  intro scan
  refine ⟨phase_scan_of_room, fun large tokens findings => ?_⟩
  obtain ⟨written, found⟩ := scan_of_emittedEnd large
  rw [show scan.appended window = _ from written, show scan.findings = _ from found, tokens_eq_cut]
  constructor
  · exact Lexes.eq_cut
  · rintro ⟨rfl, rfl⟩
    exact Lexes.of_cut 0 source

/-- An integer, a stray point and an unclosed string: the point does not belong to the number,
because no digit comes after it. -/
theorem lexes_iff_scan_point :
    let source : List UInt8 := [Byte.zero, Byte.point, Byte.quotationMark, Byte.backslash]
    let scan := (start source).scan (.blank 5)
    scan.scanner.phase = .emittedEnd ∧
      scan.appended (.blank 5) =
        [⟨.integer, ⟨0, 1⟩⟩, ⟨.error, ⟨1, 2⟩⟩, ⟨.error, ⟨2, 4⟩⟩, .endOfInput 4] ∧
      scan.findings = [⟨.lonePoint, ⟨1, 2⟩⟩, ⟨.unterminatedString, ⟨2, 4⟩⟩] := by
  intro source scan
  obtain ⟨enough, unique⟩ := lexes_iff_scan source (.blank 5)
  have large : scan.scanner.phase = .emittedEnd := enough (by decide)
  have unclosed : Cause.Fits .unterminatedString [Byte.quotationMark, Byte.backslash] [] :=
    ⟨rfl, _, rfl, Piece.closingLength?_eq_none.mp (by decide)⟩
  have point : Cause.Fits .lonePoint [Byte.point] [Byte.quotationMark, Byte.backslash] := by
    refine ⟨rfl, fun byte first => ?_⟩
    cases first
    rfl
  have integer : TokenKind.Fits .integer [Byte.zero]
      [Byte.point, Byte.quotationMark, Byte.backslash] := by
    refine ⟨⟨[], [Byte.zero], rfl, .inl rfl, rfl⟩, fun byte first => ?_, ?_⟩
    · cases first
      rfl
    · rintro ⟨digit, after, parts, isDigit⟩
      cases parts
      cases isDigit
  have lexes : Lexes 0 source _ _ :=
    .token .integer integer (.malformed .lonePoint point
      (.malformed .unterminatedString unclosed (.ending 4)))
  obtain ⟨written, found⟩ := (unique large _ _).mp lexes
  exact ⟨large, written.symm, found.symm⟩

end Scanner

end LispReader

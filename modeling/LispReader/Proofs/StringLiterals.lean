import LispReader.Proofs.Conversion
import LispReader.Proofs.Layout

/-!
# Ways of writing a string literal

There are many ways of writing the same contents between two quotation marks, since any byte may be
escaped that needs no escape. The scanner looks for the mark that closes a literal, and decoding
undoes the escapes; neither knows of the other. They agree: whatever stands around it, a literal
written in any of these ways is cut off as one token and read as the contents it was written for,
and every string token of a source is written in one of them.
-/

namespace LispReader

open Lexeme

namespace Escape

/-- Whether a text between two quotation marks is a way of writing the contents. Every byte but the
quotation mark and the backslash may be written as it is, every byte but the two letters with a
backslash in front, and the letters stand for newline and tab then. -/
inductive Encodes : (contents text : List UInt8) → Prop where
  | nil : Encodes [] []
  | raw {byte : UInt8} {contents text : List UInt8} (mark : byte ≠ Byte.quotationMark)
      (escape : byte ≠ Byte.backslash) (others : Encodes contents text) :
      Encodes (byte :: contents) (byte :: text)
  | escaped {byte : UInt8} {contents text : List UInt8} (notN : byte ≠ Byte.letterN)
      (notT : byte ≠ Byte.letterT) (others : Encodes contents text) :
      Encodes (byte :: contents) (Byte.backslash :: byte :: text)
  | newline {contents text : List UInt8} (others : Encodes contents text) :
      Encodes (Byte.newline :: contents) (Byte.backslash :: Byte.letterN :: text)
  | tab {contents text : List UInt8} (others : Encodes contents text) :
      Encodes (Byte.tab :: contents) (Byte.backslash :: Byte.letterT :: text)

/-- A backslash gives its meaning to the byte after it. -/
theorem decode_backslash (letter : UInt8) (rest : List UInt8) :
    decode (Byte.backslash :: letter :: rest) = meaning letter :: decode rest := rfl

/-- Only two letters mean another byte than themselves. -/
theorem meaning_of_ne {letter : UInt8} (notN : letter ≠ Byte.letterN)
    (notT : letter ≠ Byte.letterT) : meaning letter = letter := by
  rw [meaning, if_neg (by simpa using notN), if_neg (by simpa using notT)]

namespace Encodes

variable {contents text : List UInt8}

/-- What contents are written as may stand in a literal. -/
theorem quotable (encodes : Encodes contents text) : Quotable text := by
  induction encodes with
  | nil => exact .nil
  | raw mark escape others ih => exact .plain mark escape ih
  | escaped notN notT others ih => exact .escaped _ ih
  | newline others ih => exact .escaped _ ih
  | tab others ih => exact .escaped _ ih

/-- What contents are written as decodes to them. -/
theorem decode_eq (encodes : Encodes contents text) : decode text = contents := by
  induction encodes with
  | nil => rfl
  | raw mark escape others ih => rw [decode_cons_of_ne escape, ih]
  | escaped notN notT others ih => rw [decode_backslash, meaning_of_ne notN notT, ih]
  | newline others ih => rw [decode_backslash, ih]; rfl
  | tab others ih => rw [decode_backslash, ih]; rfl

/-- Contents written with one more escaped byte in front. -/
theorem cons_meaning (encodes : Encodes contents text) (letter : UInt8) :
    Encodes (meaning letter :: contents) (Byte.backslash :: letter :: text) := by
  by_cases isN : letter = Byte.letterN
  · rw [isN]
    exact encodes.newline
  by_cases isT : letter = Byte.letterT
  · rw [isT]
    exact encodes.tab
  · rw [meaning_of_ne isN isT]
    exact encodes.escaped isN isT

end Encodes

/-- Whatever may stand in a literal is a way of writing what it decodes to. -/
theorem encodes_decode {text : List UInt8} (quotable : Quotable text) :
    Encodes (decode text) text := by
  induction quotable with
  | nil => exact .nil
  | plain mark escape others ih =>
    rw [decode_cons_of_ne escape]
    exact .raw mark escape ih
  | escaped letter others ih => exact ih.cons_meaning letter

/-- The contents of a literal are what the text between its quotation marks decodes to. -/
theorem literalContents_marks (text : List UInt8) :
    literalContents (Byte.quotationMark :: (text ++ [Byte.quotationMark])) = decode text := by
  rw [literalContents, List.drop_succ_cons, List.drop_zero, List.dropLast_concat]

end Escape

namespace Build

/-- A string token is read as the contents of its literal, which cost their bytes and a form. -/
theorem converts_string (span : Span) (source : List UInt8) :
    Converts (leaf ⟨.string, span⟩ source)
      ((Escape.literalContents (span.slice source)).length + 39)
      (fun symbols =>
        ⟨.string span (Escape.literalContents (span.slice source)), symbols, []⟩) := by
  have size : (Escape.literalContents (span.slice source)).length.toUInt64.toNat ≤
      (Escape.literalContents (span.slice source)).length := by
    rw [Nat.toUInt64, UInt64.toNat_ofNat']
    exact Nat.mod_le _ _
  have one : (1 : UInt64).toNat = 1 := rfl
  change Converts (leaf ⟨LeafKind.string.tokenKind, span⟩ source) _ _
  rw [leaf_eq]
  refine ((Converts.reserve_then (Escape.literalContents (span.slice source)).length.toUInt64
    (by decide) (Form.string span (Escape.literalContents (span.slice source)))).bind
      fun symbols => Converts.reserveForm_then _).weaken ?_ fun _ => rfl
  omega

end Build

namespace Scanner

/-- The lexeme of a string token stands between two quotation marks that are not escaped. -/
theorem exists_quotable {before rest : List UInt8} {reported : ReportedToken}
    (member : reported ∈ cut before.length rest) (known : reported.token.kind = .string) :
    ∃ text, Quotable text ∧ reported.token.lexeme (before ++ rest) =
      Byte.quotationMark :: (text ++ [Byte.quotationMark]) := by
  obtain ⟨after, fits⟩ := exists_fits_of_mem_cut member (by simp [known]) (by simp [known])
  rw [known] at fits
  exact fits

/-- A scanner with room before a literal writes one string token that ends with the literal. -/
theorem head?_appended_literal {contents text : List UInt8}
    (encodes : Escape.Encodes contents text) (position : Nat) (after : List UInt8)
    {window : Window Token} (free : 0 < window.room) :
    ((scan ⟨position, Byte.quotationMark :: (text ++ Byte.quotationMark :: after), .scanning⟩
        window).appended window).head? =
      some ⟨.string, ⟨position, position + (text.length + 2)⟩⟩ := by
  have literal : Byte.quotationMark :: (text ++ Byte.quotationMark :: after) =
      Byte.quotationMark :: (text ++ [Byte.quotationMark]) ++ after := by simp
  have fits : TokenKind.Fits .string (Byte.quotationMark :: (text ++ [Byte.quotationMark])) after :=
    ⟨text, encodes.quotable, rfl⟩
  rw [(takes_scan _ window).appended]
  obtain ⟨more, room⟩ := Nat.exists_eq_add_one.mpr free
  rw [room, upcoming]
  dsimp only
  rw [literal, cut_token .string position fits, List.take_succ_cons, List.map_cons, List.head?_cons,
    List.length_cons, List.length_append]
  rfl

/-- The form of a token that covers a literal has the contents that are written there, unless the
arena has no room for it. -/
theorem leaf_literal {contents text : List UInt8} (encodes : Escape.Encodes contents text)
    (before after : List UInt8) (workspace : Workspace) :
    let source := before ++ Byte.quotationMark :: (text ++ Byte.quotationMark :: after)
    let span : Span := ⟨before.length, before.length + (text.length + 2)⟩
    (∃ arena, Build.leaf ⟨.string, span⟩ source workspace =
        .ok (.string span contents) { workspace with arena := arena }) ∨
      ∃ problem stopped, Build.leaf ⟨.string, span⟩ source workspace =
          .error (.arena problem) stopped ∧
        workspace.arena.remaining.toNat < contents.length + 39 := by
  intro source span
  have lexeme : span.slice source = Byte.quotationMark :: (text ++ [Byte.quotationMark]) := by
    have middle := Span.slice_append before
      (Byte.quotationMark :: (text ++ [Byte.quotationMark])) after
    rw [List.length_cons, List.length_append, List.append_assoc, List.cons_append,
      List.append_assoc] at middle
    exact middle
  have read : Escape.literalContents (span.slice source) = contents := by
    rw [lexeme, Escape.literalContents_marks, encodes.decode_eq]
  have converts := Build.converts_string span source
  rw [read] at converts
  rcases converts workspace with ⟨arena, ran, -, -⟩ | ⟨problem, stopped, ran, full⟩
  · rw [List.append_nil] at ran
    exact .inl ⟨arena, ran⟩
  · have inside := workspace.arena.offset_le_capacity
    have left := workspace.arena.toNat_remaining
    exact .inr ⟨problem, stopped, ran, by omega⟩

/-- A scanner before a literal with some contents, in whatever way they are written and whatever
stands around it, writes one string token that ends with the literal, and the form of this token has
these contents unless the arena has no room for it. Conversely the lexeme of every string token that
a scanner writes is a way of writing the contents that are decoded from it. -/
theorem scan_literals (before rest : List UInt8) (window : Window Token) :
    let source := before ++ rest
    let standing := fun phase => Scanner.mk before.length rest phase
    (∀ contents text after, Escape.Encodes contents text →
      rest = Byte.quotationMark :: (text ++ Byte.quotationMark :: after) → 0 < window.room →
      let span : Span := ⟨before.length, before.length + (text.length + 2)⟩
      (((standing .scanning).scan window).appended window).head? = some ⟨.string, span⟩ ∧
        ∀ workspace : Workspace,
          (∃ arena, Build.leaf ⟨.string, span⟩ source workspace =
            .ok (.string span contents) { workspace with arena := arena }) ∨
          ∃ problem stopped, Build.leaf ⟨.string, span⟩ source workspace =
              .error (.arena problem) stopped ∧
            workspace.arena.remaining.toNat < contents.length + 39) ∧
      ∀ phase, ∀ token ∈ ((standing phase).scan window).appended window, token.kind = .string →
        ∃ text, token.lexeme source = Byte.quotationMark :: (text ++ [Byte.quotationMark]) ∧
          Escape.Encodes (Escape.literalContents (token.lexeme source)) text := by
  intro source standing
  constructor
  · rintro contents text after encodes rfl free span
    exact ⟨head?_appended_literal encodes before.length after free,
      leaf_literal encodes before after⟩
  · intro phase token member known
    rw [(takes_scan _ window).appended] at member
    obtain ⟨reported, taken, rfl⟩ := List.mem_map.mp member
    have cut : reported ∈ cut before.length rest := by
      have upcoming := List.mem_of_mem_take taken
      cases phase with
      | scanning => exact upcoming
      | emittedEnd | exhausted => cases upcoming
    obtain ⟨text, quotable, parts⟩ := exists_quotable cut known
    refine ⟨text, parts, ?_⟩
    rw [parts, Escape.literalContents_marks]
    exact Escape.encodes_decode quotable

/-- An escaped quotation mark, an escape for a newline and a letter, behind an apostrophe and before
another letter: five bytes between the marks stand for three. -/
theorem scan_literals_escapes :
    let text : List UInt8 :=
      [Byte.backslash, Byte.quotationMark, Byte.backslash, Byte.letterN, 0x61]
    let rest : List UInt8 := Byte.quotationMark :: (text ++ [Byte.quotationMark, 0x62])
    let source := Byte.apostrophe :: rest
    let arena : Arena := ⟨Arena.blockAddress, 64, 0, by decide, by decide, by decide⟩
    let workspace : Workspace := ⟨arena, .empty, []⟩
    0 < (Window.blank 1).room ∧ Escape.Encodes [Byte.quotationMark, Byte.newline, 0x61] text ∧
      ((scan ⟨1, rest, .scanning⟩ (.blank 1)).appended (.blank 1)).head? =
        some ⟨.string, ⟨1, 8⟩⟩ ∧
      ∃ after, Build.leaf ⟨.string, ⟨1, 8⟩⟩ source workspace =
        .ok (.string ⟨1, 8⟩ [Byte.quotationMark, Byte.newline, 0x61]) after := by
  intro text rest source arena workspace
  have encodes : Escape.Encodes [Byte.quotationMark, Byte.newline, 0x61] text :=
    .escaped (by decide) (by decide) (.newline (.raw (by decide) (by decide) .nil))
  have free : 0 < (Window.blank 1).room := by decide
  obtain ⟨written, form⟩ := (scan_literals [Byte.apostrophe] rest (.blank 1)).1 _ text [0x62]
    encodes rfl free
  refine ⟨free, encodes, written, ?_⟩
  rcases form workspace with ⟨arena, ran⟩ | ⟨problem, stopped, -, full⟩
  · exact ⟨_, ran⟩
  · exact absurd full (by decide)

end Scanner

end LispReader

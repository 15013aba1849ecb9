import LispReader.Proofs.LexicalGrammar
import LispReader.Proofs.Reading

/-!
# Which sources are read, and as what

Unless its arena runs out, a read succeeds exactly if the tokens of the source, its end left out,
are those of phrases nested no deeper than the settings allow. Then there is one such row of
phrases, and the forms that are read spell it out: written with its parentheses and apostrophes at
the ends of its spans, every form gives back the tokens of its phrase.
-/

namespace LispReader

/-! ## Tokens in order -/

namespace Token

/-- Tokens that start where they should: none ends before it starts, and none before the one in
front of it ends. -/
def Ordered (tokens : List Token) : Prop :=
  (∀ token ∈ tokens, token.span.start ≤ token.span.stop) ∧
    tokens.Pairwise fun earlier later => earlier.span.stop ≤ later.span.start

/-- Each of two rows of tokens is in order if both together are. -/
theorem Ordered.of_append {first second : List Token} (ordered : Ordered (first ++ second)) :
    Ordered first ∧ Ordered second := by
  obtain ⟨proper, pairwise⟩ := ordered
  rw [List.pairwise_append] at pairwise
  exact ⟨⟨fun token member => proper token (List.mem_append_left _ member), pairwise.1⟩,
    ⟨fun token member => proper token (List.mem_append_right _ member), pairwise.2.1⟩⟩

/-- A token ends before the tokens after it start. -/
theorem Ordered.of_cons {token : Token} {rest : List Token} (ordered : Ordered (token :: rest)) :
    token.span.start ≤ token.span.stop ∧ Ordered rest ∧
      ∀ later ∈ rest, token.span.stop ≤ later.span.start := by
  obtain ⟨proper, pairwise⟩ := ordered
  rw [List.pairwise_cons] at pairwise
  exact ⟨proper token List.mem_cons_self,
    ⟨fun later member => proper later (List.mem_cons_of_mem _ member), pairwise.2⟩, pairwise.1⟩

end Token

namespace Scanner

/-- Every token lies after the position from which it was cut. -/
theorem le_start_of_mem_cut {position : Nat} {input : List UInt8} {reported : ReportedToken}
    (member : reported ∈ cut position input) :
    position ≤ reported.token.span.start ∧
      reported.token.span.start ≤ reported.token.span.stop := by
  cases arises_of_mem_cut member with
  | ending => exact ⟨Nat.le_add_right _ _, Nat.le_refl _⟩
  | token | malformed => exact ⟨Nat.le_add_right _ _, Nat.le_add_right _ _⟩

/-- A source is cut into tokens in order. -/
theorem ordered_cut (position : Nat) (input : List UInt8) :
    Token.Ordered ((cut position input).map ReportedToken.token) := by
  constructor
  · intro token member
    obtain ⟨reported, found, rfl⟩ := List.mem_map.mp member
    exact (le_start_of_mem_cut found).2
  · rw [List.pairwise_map]
    induction position, input using cut_induction with
    | nil position =>
      rw [cut_nil]
      exact List.pairwise_singleton _ _
    | trivia position input nonempty trivial ih =>
      rw [cut_of_trivia nonempty trivial]
      exact ih
    | token position input kind nonempty known ih =>
      rw [cut_of_kind nonempty known, List.pairwise_cons]
      exact ⟨fun later member => (le_start_of_mem_cut member).1, ih⟩

/-- The token of a parenthesis or an apostrophe covers one byte. -/
theorem length_of_mem_cut {position : Nat} {input : List UInt8} {reported : ReportedToken}
    (member : reported ∈ cut position input) (mark : reported.token.kind.isMark = true) :
    reported.token.span.length = 1 := by
  cases arises_of_mem_cut member with
  | ending => cases mark
  | token skipped length kind found =>
    have sound := Piece.sound_leading (input.drop skipped)
    rw [found] at sound
    have single := sound.2.2 mark
    simp only [Span.length]
    omega
  | malformed => cases mark

end Scanner

/-! ## Spans of phrases -/

namespace Span

/-- A span of one byte is known from its start. -/
theorem eq_of_length_start {span : Span} (single : span.length = 1) :
    span = ⟨span.start, span.start + 1⟩ := by
  obtain ⟨start, stop⟩ := span
  simp only [length] at single
  simp only [mk.injEq, true_and]
  omega

/-- A span of one byte is known from its stop. -/
theorem eq_of_length_stop {span : Span} (single : span.length = 1) :
    span = ⟨span.stop - 1, span.stop⟩ := by
  obtain ⟨start, stop⟩ := span
  simp only [length] at single
  simp only [mk.injEq, and_true]
  omega

end Span

namespace Phrase

/-- Where a phrase starts and where it stops. -/
def span : Phrase → Span
  | .leaf _ span => span
  | .list opening _ closing => ⟨opening.start, closing.stop⟩
  | .quote mark quoted => ⟨mark.start, quoted.span.stop⟩

/-- A phrase starts with one of its tokens. -/
theorem exists_start (phrase : Phrase) :
    ∃ token ∈ phrase.tokens, token.span.start = phrase.span.start := by
  cases phrase with
  | leaf kind span => exact ⟨⟨kind.tokenKind, span⟩, List.mem_singleton_self _, rfl⟩
  | list opening items closing => exact ⟨⟨.leftParen, opening⟩, List.mem_cons_self, rfl⟩
  | quote mark quoted => exact ⟨⟨.quote, mark⟩, List.mem_cons_self, rfl⟩

/-- The parentheses of a list in order stand one after the other. -/
theorem stop_le_start_of_list {opening closing : Span} {items : List Phrase}
    (ordered : Token.Ordered (list opening items closing).tokens) :
    opening.start ≤ opening.stop ∧ opening.stop ≤ closing.start ∧
      closing.start ≤ closing.stop := by
  obtain ⟨first, others, after⟩ := ordered.of_cons
  have last : (⟨.rightParen, closing⟩ : Token) ∈ tokensAll items ++ [⟨.rightParen, closing⟩] :=
    List.mem_append_right _ (List.mem_singleton_self _)
  exact ⟨first, after _ last, others.1 _ last⟩

/-- A phrase after an apostrophe in order starts after it. -/
theorem stop_le_start_of_quote {mark : Span} {quoted : Phrase}
    (ordered : Token.Ordered (quote mark quoted).tokens) :
    mark.start ≤ mark.stop ∧ mark.stop ≤ quoted.span.start ∧ Token.Ordered quoted.tokens := by
  obtain ⟨first, others, after⟩ := ordered.of_cons
  obtain ⟨token, member, start⟩ := quoted.exists_start
  exact ⟨first, start ▸ after token member, others⟩

/-- A phrase in order does not stop before it starts. -/
theorem start_le_stop (phrase : Phrase) (ordered : Token.Ordered phrase.tokens) :
    phrase.span.start ≤ phrase.span.stop := by
  match phrase with
  | .leaf kind span => exact ordered.1 _ (List.mem_singleton_self _)
  | .list opening items closing =>
    obtain ⟨first, between, last⟩ := stop_le_start_of_list ordered
    exact Nat.le_trans first (Nat.le_trans between last)
  | .quote mark quoted =>
    obtain ⟨first, after, others⟩ := stop_le_start_of_quote ordered
    exact Nat.le_trans first (Nat.le_trans after (start_le_stop quoted others))

/-- A leaf is read as a form with the span of the leaf. -/
theorem span_convert_leaf (kind : LeafKind) (span : Span) (lexeme : List UInt8)
    (symbols : SymbolTable) : (kind.convert span lexeme symbols).value.span = span := by
  cases kind with
  | atom | integer | float => simp only [LeafKind.convert]; split <;> rfl
  | string | error => rfl

/-- A phrase in order is read as a form with the span of the phrase. -/
theorem span_convert (phrase : Phrase) (source : List UInt8) (symbols : SymbolTable)
    (ordered : Token.Ordered phrase.tokens) :
    (phrase.convert source symbols).value.span = phrase.span := by
  match phrase with
  | .leaf kind span => exact span_convert_leaf kind span _ symbols
  | .list opening items closing =>
    obtain ⟨first, between, last⟩ := stop_le_start_of_list ordered
    simp only [convert, Form.span, Span.cover, span, Span.mk.injEq]
    omega
  | .quote mark quoted =>
    obtain ⟨first, after, others⟩ := stop_le_start_of_quote ordered
    have proper := start_le_stop quoted others
    have inner := span_convert quoted source symbols others
    change mark.cover (quoted.convert source symbols).value.span = ⟨mark.start, quoted.span.stop⟩
    rw [inner, Span.cover, Nat.min_eq_left (Nat.le_trans first after),
      Nat.max_eq_right (Nat.le_trans after proper)]

end Phrase

/-! ## Forms that phrases stand for -/

namespace LeafKind

/-- Whether a leaf is read as `form`. The name of a symbol must be text and an integer must fit in
64 bits; where they do not, an unreadable form stands in. -/
def Denotes (kind : LeafKind) (table : SymbolTable) (span : Span) (lexeme : List UInt8)
    (form : Form) : Prop :=
  match kind with
  | .atom =>
    match Text.ofBytes? lexeme with
    | some name => ∃ symbol, form = .symbol span symbol ∧ table.resolve? symbol = some name
    | none => form = .error span
  | .integer => ∃ number, Numeral.readInt? lexeme = some number ∧
      form = if Numeral.fitsInt64 number then .integer span (.ofInt number) else .error span
  | .float => ∃ number, Binary64.read? lexeme = some number ∧ form = .float span number
  | .string => form = .string span (Escape.literalContents lexeme)
  | .error => form = .error span

end LeafKind

namespace Phrase

mutual

/-- Whether a phrase of `source` is the derivation of `form`: a list stands between parentheses at
the two ends of its span, a quote starts with its apostrophe and stops with its form, and a leaf has
the span of its token. -/
def Denotes (table : SymbolTable) (source : List UInt8) : Phrase → Form → Prop
  | .leaf kind span, form => kind.Denotes table span (span.slice source) form
  | .list opening items closing, .list span forms =>
    opening = ⟨span.start, span.start + 1⟩ ∧ closing = ⟨span.stop - 1, span.stop⟩ ∧
      DenotesAll table source items forms
  | .quote mark quoted, .quote span form =>
    mark = ⟨span.start, span.start + 1⟩ ∧ span.stop = form.span.stop ∧
      Denotes table source quoted form
  | _, _ => False

/-- Whether phrases of `source` are the derivations of forms, one by one. -/
def DenotesAll (table : SymbolTable) (source : List UInt8) : List Phrase → List Form → Prop
  | [], [] => True
  | phrase :: phrases, form :: forms =>
    Denotes table source phrase form ∧ DenotesAll table source phrases forms
  | _, _ => False

end

mutual

/-- A derivation stays one as more names become known. -/
theorem Denotes.of_extends {table later : SymbolTable} {source : List UInt8} {phrase : Phrase}
    {form : Form} (denotes : phrase.Denotes table source form) (more : later.Extends table) :
    phrase.Denotes later source form := by
  match phrase, form with
  | .leaf kind span, form =>
    cases kind with
    | atom =>
      simp only [Denotes, LeafKind.Denotes] at denotes ⊢
      split at denotes
      · obtain ⟨symbol, same, known⟩ := denotes
        exact ⟨symbol, same, more symbol _ known⟩
      · exact denotes
    | integer | float | string | error => exact denotes
  | .list opening items closing, .list span forms =>
    exact ⟨denotes.1, denotes.2.1, denotesAll_of_extends denotes.2.2 more⟩
  | .quote mark quoted, .quote span form =>
    exact ⟨denotes.1, denotes.2.1, denotes.2.2.of_extends more⟩

/-- Derivations stay so as more names become known. -/
theorem denotesAll_of_extends {table later : SymbolTable} {source : List UInt8}
    {phrases : List Phrase} {forms : List Form} (denotes : DenotesAll table source phrases forms)
    (more : later.Extends table) : DenotesAll later source phrases forms := by
  match phrases, forms with
  | [], [] => trivial
  | phrase :: phrases, form :: forms =>
    exact ⟨denotes.1.of_extends more, denotesAll_of_extends denotes.2 more⟩

end

end Phrase

namespace Token

/-- Tokens that were cut from `source` one after the other. -/
structure Scanned (source : List UInt8) (tokens : List Token) : Prop where
  ordered : Ordered tokens
  marks : ∀ token ∈ tokens, token.kind.isMark = true → token.span.length = 1
  admits : ∀ token ∈ tokens, ∀ kind : LeafKind, token.kind = kind.tokenKind →
    kind.Admits (token.lexeme source)

/-- Each of two rows of tokens was cut if both together were. -/
theorem Scanned.of_append {source : List UInt8} {first second : List Token}
    (scanned : Scanned source (first ++ second)) :
    Scanned source first ∧ Scanned source second := by
  obtain ⟨front, back⟩ := scanned.ordered.of_append
  exact ⟨⟨front, fun token member => scanned.marks token (List.mem_append_left _ member),
      fun token member => scanned.admits token (List.mem_append_left _ member)⟩,
    ⟨back, fun token member => scanned.marks token (List.mem_append_right _ member),
      fun token member => scanned.admits token (List.mem_append_right _ member)⟩⟩

/-- The tokens between the parentheses of a list were cut if those of the list were. -/
theorem Scanned.items {source : List UInt8} {opening closing : Span} {items : List Phrase}
    (scanned : Scanned source (Phrase.list opening items closing).tokens) :
    Scanned source (Phrase.tokensAll items) := by
  have row : Scanned source ([⟨.leftParen, opening⟩] ++
    (Phrase.tokensAll items ++ [⟨.rightParen, closing⟩])) := scanned
  exact row.of_append.2.of_append.1

/-- The tokens after an apostrophe were cut if those of the quote were. -/
theorem Scanned.quoted {source : List UInt8} {mark : Span} {quoted : Phrase}
    (scanned : Scanned source (Phrase.quote mark quoted).tokens) :
    Scanned source quoted.tokens := by
  have row : Scanned source ([⟨.quote, mark⟩] ++ quoted.tokens) := scanned
  exact row.of_append.2

end Token

/-- The tokens of a source were cut from it. -/
theorem Scanner.scanned_tokens (source : List UInt8) :
    Token.Scanned source (Scanner.tokens source) := by
  rw [tokens_eq_cut]
  refine ⟨ordered_cut 0 source, ?_, ?_⟩
  · intro token member mark
    obtain ⟨reported, found, rfl⟩ := List.mem_map.mp member
    exact length_of_mem_cut found mark
  · intro token member kind known
    obtain ⟨reported, found, rfl⟩ := List.mem_map.mp member
    exact admits_of_mem_cut found known

/-- The tokens of the phrases that a source derives were cut from it. -/
theorem Phrase.Derives.scanned {limit : Nat} {source : List UInt8} {phrases : List Phrase}
    (derives : Phrase.Derives limit source phrases) :
    Token.Scanned source (Phrase.tokensAll phrases) := by
  have scanned := Scanner.scanned_tokens source
  rw [← derives.tokens] at scanned
  exact scanned.of_append.1

namespace LeafKind

/-- What a leaf is read as is what it denotes. -/
theorem denotes_convert {kind : LeafKind} {lexeme : List UInt8} (span : Span)
    (symbols : SymbolTable) (admits : kind.Admits lexeme) :
    kind.Denotes (kind.convert span lexeme symbols).symbols span lexeme
      (kind.convert span lexeme symbols).value := by
  cases kind with
  | atom =>
    simp only [Denotes, convert]
    cases Text.ofBytes? lexeme with
    | none => rfl
    | some name => exact ⟨_, rfl, symbols.resolve?_intern name⟩
  | integer =>
    obtain ⟨number, stands⟩ := admits.exists_readInt?
    refine ⟨number, stands, ?_⟩
    simp only [convert, Numeral.readInt64?, stands]
    cases Numeral.fitsInt64 number <;> rfl
  | float =>
    obtain ⟨number, stands⟩ := admits.exists_read?
    refine ⟨number, stands, ?_⟩
    simp only [convert, stands]
  | string | error => rfl

end LeafKind

namespace Phrase

mutual

/-- What a phrase is read as has the phrase as its derivation. -/
theorem denotes_convert {source : List UInt8} (phrase : Phrase) (symbols : SymbolTable)
    (scanned : Token.Scanned source phrase.tokens) :
    phrase.Denotes (phrase.convert source symbols).symbols source
      (phrase.convert source symbols).value := by
  match phrase with
  | .leaf kind span =>
    exact LeafKind.denotes_convert span symbols
      (scanned.admits ⟨kind.tokenKind, span⟩ (List.mem_singleton_self _) kind rfl)
  | .list opening items closing =>
    have spanned : opening.cover closing = ⟨opening.start, closing.stop⟩ :=
      span_convert (.list opening items closing) source symbols scanned.ordered
    have left := scanned.marks ⟨.leftParen, opening⟩ List.mem_cons_self rfl
    have right := scanned.marks ⟨.rightParen, closing⟩ (List.mem_cons_of_mem _
      (List.mem_append_right _ (List.mem_singleton_self _))) rfl
    refine ⟨?_, ?_, denotesAll_convertAll items symbols scanned.items⟩
    · rw [spanned]
      exact Span.eq_of_length_start left
    · rw [spanned]
      exact Span.eq_of_length_stop right
  | .quote mark quoted =>
    have single := scanned.marks ⟨.quote, mark⟩ List.mem_cons_self rfl
    have spanned : mark.cover (quoted.convert source symbols).value.span =
        ⟨mark.start, quoted.span.stop⟩ :=
      span_convert (.quote mark quoted) source symbols scanned.ordered
    have inner := span_convert quoted source symbols scanned.quoted.ordered
    refine ⟨?_, ?_, denotes_convert quoted symbols scanned.quoted⟩
    · rw [spanned]
      exact Span.eq_of_length_start single
    · rw [spanned, inner]

/-- What phrases are read as has the phrases as its derivation. -/
theorem denotesAll_convertAll {source : List UInt8} (phrases : List Phrase)
    (symbols : SymbolTable) (scanned : Token.Scanned source (tokensAll phrases)) :
    DenotesAll (convertAll source symbols phrases).symbols source phrases
      (convertAll source symbols phrases).value := by
  match phrases with
  | [] => trivial
  | phrase :: rest =>
    obtain ⟨front, back⟩ := scanned.of_append
    have first := denotes_convert phrase symbols front
    have others := denotesAll_convertAll rest (phrase.convert source symbols).symbols back
    exact ⟨first.of_extends (extends_convertAll source _ rest), others⟩

end

end Phrase

/-! ## Acceptance -/

/-- A source derives at most one row of phrases. -/
theorem Phrase.Derives.unique {limit limit' : Nat} {source : List UInt8}
    {phrases others : List Phrase} (first : Phrase.Derives limit source phrases)
    (second : Phrase.Derives limit' source others) : others = phrases := by
  have same := second.tokens.trans first.tokens.symm
  have stops : Phrase.Stops [.endOfInput source.length] := by
    intro token last
    cases last
    rfl
  exact (Phrase.tokensAll_append_inj others phrases same stops stops).1

namespace Session

/-- A read accepts exactly the sources that derive phrases, unless its arena runs out, which it does
not with sixty-four bytes for every byte of the source and its end. What is read has as its
derivation the one row of phrases whose tokens are those of the source. -/
theorem read_ok_iff_derives (session : Session) (arena : Arena) (source : List UInt8)
    (short : source.length < Scanner.sourceLimit) :
    let limit := min session.settings.maxDepth.toNat 1024
    let reading := session.read arena source
    (64 * (source.length + 1) ≤ arena.remaining.toNat ∨
        (∀ problem, reading.result ≠ .error (.arena problem)) →
      ((∃ tree, reading.result = .ok tree) ↔ ∃ phrases, Phrase.Derives limit source phrases)) ∧
    ∀ tree, reading.result = .ok tree →
      ∃ phrases, Phrase.Derives limit source phrases ∧
        Phrase.DenotesAll reading.session.symbols source phrases tree.forms ∧
        ∀ others, Phrase.Derives limit source others → others = phrases := by
  intro limit reading
  constructor
  · intro room
    constructor
    · rintro ⟨tree, succeeds⟩
      exact (derives_of_read succeeds).2
    · rintro ⟨phrases, derives⟩
      exact ⟨_, (gives_of_derives short derives room).result⟩
  · intro tree succeeds
    obtain ⟨phrases, derives, rfl, gives⟩ := gives_of_read succeeds
    have denoted := Phrase.denotesAll_convertAll phrases session.symbols derives.scanned
    rw [← gives.symbols] at denoted
    exact ⟨phrases, derives, denoted, fun others second => derives.unique second⟩

/-- A quoted empty list at the depth limit is read: the apostrophe and the parentheses are its
derivation. -/
theorem read_ok_iff_derives_quoted_list :
    let source : List UInt8 := [Byte.apostrophe, Byte.leftParen, Byte.rightParen]
    let session : Session := .create { Settings.default with maxDepth := 1 }
    let arena : Arena := ⟨Arena.blockAddress, 256, 0, by decide, by decide, by decide⟩
    source.length < Scanner.sourceLimit ∧ 64 * (source.length + 1) ≤ arena.remaining.toNat ∧
      Phrase.Derives 1 source [.quote ⟨0, 1⟩ (.list ⟨1, 2⟩ [] ⟨2, 3⟩)] ∧
      ∃ tree, (session.read arena source).result = .ok tree := by
  intro source session arena
  have short : source.length < Scanner.sourceLimit := by decide
  have room : 64 * (source.length + 1) ≤ arena.remaining.toNat := by decide
  have derives : Phrase.Derives 1 source [.quote ⟨0, 1⟩ (.list ⟨1, 2⟩ [] ⟨2, 3⟩)] := by
    refine ⟨by simp, ?_, by simp [Phrase.WithinAll, Phrase.Within]⟩
    have quote : Scanner.cut 0 source = _ := Scanner.cut_of_kind (by simp [source]) rfl
    have left : Scanner.cut 1 [Byte.leftParen, Byte.rightParen] = _ :=
      Scanner.cut_of_kind (by simp) rfl
    have right : Scanner.cut 2 [Byte.rightParen] = _ := Scanner.cut_of_kind (by simp) rfl
    rw [Scanner.tokens_eq_cut, quote]
    change _ = _ :: (Scanner.cut 1 [Byte.leftParen, Byte.rightParen]).map _
    rw [left]
    change _ = _ :: _ :: (Scanner.cut 2 [Byte.rightParen]).map _
    rw [right]
    change _ = _ :: _ :: _ :: (Scanner.cut 3 []).map _
    rw [Scanner.cut_nil]
    rfl
  exact ⟨short, room, derives,
    ((read_ok_iff_derives session arena source short).1 (.inl room)).mpr ⟨_, derives⟩⟩

end Session

end LispReader

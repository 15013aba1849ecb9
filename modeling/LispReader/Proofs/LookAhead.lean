import LispReader.Proofs.LexicalGrammar

/-!
# Looking ahead

What comes after a piece only matters for where the piece ends, and two bytes of it decide that. So
the tokens before a byte that is not a lone point at the end of a source stay as they are when more
input comes. A newline settles all tokens but a string that nothing closes, and a quotation mark or
two before the newline close that.
-/

namespace LispReader

open Lexeme

namespace Lexeme

/-- Whether what ends before `rest` ends before `other` too. -/
structure EndsAlike (rest other : List UInt8) : Prop where
  names : Ends Byte.isSymbol rest → Ends Byte.isSymbol other
  digits : Ends Byte.isDigit rest → Ends Byte.isDigit other
  points : Ends Byte.isPointOrDigit rest → Ends Byte.isPointOrDigit other
  comments : Ends (· != Byte.newline) rest → Ends (· != Byte.newline) other
  wholes : ¬ OpensFraction rest → ¬ OpensFraction other

/-- A newline ends whatever the end of a source ends. -/
theorem endsAlike_newline (more : List UInt8) : EndsAlike [] (Byte.newline :: more) := by
  have first (keep : UInt8 → Bool) (other : keep Byte.newline = false) :
      Ends keep (Byte.newline :: more) := by
    intro byte head
    cases head
    exact other
  refine ⟨fun _ => first _ rfl, fun _ => first _ rfl, fun _ => first _ rfl, fun _ => first _ rfl,
    ?_⟩
  rintro - ⟨digit, after, parts, -⟩
  cases parts

/-- Behind the same byte everything ends alike. -/
theorem EndsAlike.cons {rest other : List UInt8} (alike : EndsAlike rest other) (byte : UInt8) :
    EndsAlike (byte :: rest) (byte :: other) := by
  refine ⟨id, id, id, id, ?_⟩
  rintro plain ⟨digit, after, parts, isDigit⟩
  cases parts
  have undigited : Ends Byte.isDigit rest := by
    intro next first
    obtain ⟨others, rfl⟩ := List.head?_eq_some_iff.mp first
    rw [Bool.eq_false_iff]
    intro isDigit'
    exact plain ⟨next, others, rfl, isDigit'⟩
  rw [alike.digits undigited digit rfl] at isDigit
  cases isDigit

/-- Behind the same bytes everything ends alike. -/
theorem EndsAlike.append {rest other : List UInt8} (alike : EndsAlike rest other)
    (front : List UInt8) : EndsAlike (front ++ rest) (front ++ other) := by
  induction front with
  | nil => exact alike
  | cons byte front ih => exact ih.cons byte

/-- More input after a byte that is not a lone point ends nothing else. -/
theorem endsAlike_append {rest : List UInt8} (nonempty : rest ≠ []) (proper : rest ≠ [Byte.point])
    (more : List UInt8) : EndsAlike rest (rest ++ more) := by
  refine ⟨fun stop => stop.append nonempty more, fun stop => stop.append nonempty more,
    fun stop => stop.append nonempty more, fun stop => stop.append nonempty more, ?_⟩
  rintro plain ⟨digit, after, parts, isDigit⟩
  match rest with
  | [] => exact nonempty rfl
  | [byte] =>
    cases parts
    exact proper rfl
  | byte :: next :: others =>
    cases parts
    exact plain ⟨digit, others, rfl, isDigit⟩

/-- A string that nothing closes is closed by one quotation mark, or by two after a lone
backslash. -/
theorem exists_closing_marks {body : List UInt8} (unclosed : Piece.closingLength? body = none) :
    ∃ marks contents, marks.length ≤ 2 ∧ Quotable contents ∧
      body ++ marks = contents ++ [Byte.quotationMark] := by
  fun_induction Piece.closingLength? body with
  | case1 => exact ⟨[Byte.quotationMark], [], by decide, .nil, rfl⟩
  | case2 => cases unclosed
  | case3 byte mark escape =>
    rw [beq_iff_eq.mp escape]
    exact ⟨[Byte.quotationMark, Byte.quotationMark], [Byte.backslash, Byte.quotationMark],
      by decide, .escaped _ .nil, rfl⟩
  | case4 byte mark escape letter after ih =>
    obtain ⟨marks, contents, short, quotable, parts⟩ := ih (Option.map_eq_none_iff.mp unclosed)
    rw [beq_iff_eq.mp escape]
    exact ⟨marks, Byte.backslash :: letter :: contents, short, .escaped letter quotable,
      congrArg (Byte.backslash :: letter :: ·) parts⟩
  | case5 byte rest mark escape ih =>
    obtain ⟨marks, contents, short, quotable, parts⟩ := ih (Option.map_eq_none_iff.mp unclosed)
    exact ⟨marks, byte :: contents, short, .plain (by simpa using mark) (by simpa using escape)
      quotable, congrArg (byte :: ·) parts⟩

end Lexeme

/-! ## Pieces before other input -/

namespace Piece

/-- A token fits before whatever ends it too. Only a string that nothing closes needs the source to
end. -/
theorem Fits.of_ends {piece : Piece} {lexeme rest other : List UInt8}
    (fits : piece.Fits lexeme rest) (proper : piece ≠ .trivia)
    (closed : piece ≠ .malformed .unterminatedString)
    (names : Ends Byte.isSymbol rest → Ends Byte.isSymbol other)
    (points : Ends Byte.isPointOrDigit rest → Ends Byte.isPointOrDigit other)
    (wholes : ¬ OpensFraction rest → ¬ OpensFraction other) : piece.Fits lexeme other := by
  match piece with
  | .trivia => exact absurd rfl proper
  | .token .leftParen | .token .rightParen | .token .quote | .token .string => exact fits
  | .token .atom => exact ⟨fits.1, names fits.2⟩
  | .token .integer => exact ⟨fits.1, names fits.2.1, wholes fits.2.2⟩
  | .token .float => exact ⟨fits.1, names fits.2⟩
  | .malformed .unterminatedString => exact absurd rfl closed
  | .malformed .malformedNumber =>
    rcases fits with ⟨number, tail, parts, shaped, undigited, nonempty, symbols, stop⟩ |
      ⟨run, parts, nonempty, inside, stop⟩
    · exact .inl ⟨number, tail, parts, shaped, undigited, nonempty, symbols, names stop⟩
    · exact .inr ⟨run, parts, nonempty, inside, points stop⟩
  | .malformed .lonePoint => exact ⟨fits.1, points fits.2⟩
  | .malformed (.strayByte byte) => exact fits

/-- A token fits before whatever ends everything alike. -/
theorem Fits.of_endsAlike {piece : Piece} {lexeme rest other : List UInt8}
    (fits : piece.Fits lexeme rest) (proper : piece ≠ .trivia)
    (closed : piece ≠ .malformed .unterminatedString) (alike : EndsAlike rest other) :
    piece.Fits lexeme other :=
  fits.of_ends proper closed alike.names alike.points alike.wholes

/-- A token fits before whatever continues neither a name nor a number. -/
theorem Fits.of_delimits {piece : Piece} {lexeme rest other : List UInt8}
    (fits : piece.Fits lexeme rest) (proper : piece ≠ .trivia)
    (closed : piece ≠ .malformed .unterminatedString) (delimits : Byte.Delimits other) :
    piece.Fits lexeme other := by
  have names : Ends Byte.isSymbol other := fun byte first => (delimits byte first).1
  have points : Ends Byte.isPointOrDigit other := by
    intro byte first
    obtain ⟨unnamed, unpointed⟩ := delimits byte first
    rw [Byte.isPointOrDigit, Byte.isDigit_of_isSymbol unnamed]
    simpa using unpointed
  exact fits.of_ends proper closed (fun _ => names) (fun _ => points)
    fun _ => not_opensFraction_of_delimits delimits

/-- The tokens of a piece that covers `span`: none for trivia, and one for any other. -/
def reported (piece : Piece) (span : Span) : List ReportedToken :=
  match piece.kind? with
  | none => []
  | some kind => [⟨⟨kind, span⟩, piece.findings span⟩]

/-- A token of a piece and others is that of the piece, if there is nothing in front of it, or one
of the others. -/
theorem reported_append {piece : Piece} {span : Span} {others front rest : List ReportedToken}
    {token : ReportedToken} (parts : piece.reported span ++ others = front ++ token :: rest) :
    (front = [] ∧ piece.kind? = some token.token.kind) ∨
      ∃ later, front = piece.reported span ++ later ∧ others = later ++ token :: rest := by
  cases known : piece.kind? with
  | none =>
    rw [reported, known] at parts ⊢
    exact .inr ⟨front, rfl, parts⟩
  | some kind =>
    rw [reported, known] at parts ⊢
    cases front with
    | nil =>
      cases parts
      exact .inl ⟨rfl, rfl⟩
    | cons first later =>
      cases parts
      exact .inr ⟨later, rfl, rfl⟩

/-- Only trivia becomes no token. -/
theorem eq_trivia_of_kind? {piece : Piece} (known : piece.kind? = none) : piece = .trivia := by
  cases piece with
  | trivia => rfl
  | token kind => cases known
  | malformed cause => cases known

/-- A piece that becomes a token of a kind other than an error fits as that kind. -/
theorem Fits.of_kind? {piece : Piece} {kind : TokenKind} {lexeme rest : List UInt8}
    (fits : piece.Fits lexeme rest) (known : piece.kind? = some kind) (proper : kind ≠ .error) :
    kind.Fits lexeme rest := by
  cases piece with
  | trivia => cases known
  | token other =>
    cases known
    exact fits
  | malformed cause =>
    cases known
    exact absurd rfl proper

end Piece

namespace Scanner

/-- Trivia is skipped before whatever ends a comment alike. -/
theorem cut_trivia_of_ends {lexeme rest other : List UInt8} (position : Nat)
    (fits : Piece.trivia.Fits lexeme rest)
    (comments : Ends (· != Byte.newline) rest → Ends (· != Byte.newline) other) :
    cut position (lexeme ++ other) = cut (position + lexeme.length) other := by
  rcases fits with ⟨-, blank, -⟩ | ⟨run, rfl, inside, stop⟩
  · exact cut_blanks blank position other
  · exact cut_comment position inside (comments stop)

/-- A piece that fits is cut off as its tokens. -/
theorem cut_append (piece : Piece) {lexeme rest : List UInt8} (position : Nat)
    (nonempty : lexeme ≠ []) (fits : piece.Fits lexeme rest) :
    cut position (lexeme ++ rest) =
      piece.reported ⟨position, position + lexeme.length⟩ ++
        cut (position + lexeme.length) rest := by
  cases known : piece.kind? with
  | none =>
    obtain rfl : piece = .trivia := Piece.eq_trivia_of_kind? known
    exact cut_trivia lexeme position nonempty fits
  | some kind =>
    rw [cut_of_fits piece position fits known, Piece.reported, known]
    rfl

/-- A piece is cut off as the same tokens before whatever ends it alike. -/
theorem cut_append_of_alike {piece : Piece} {lexeme rest other : List UInt8} (position : Nat)
    (nonempty : lexeme ≠ []) (fits : piece.Fits lexeme rest)
    (closed : piece ≠ .malformed .unterminatedString) (alike : EndsAlike rest other) :
    cut position (lexeme ++ other) =
      piece.reported ⟨position, position + lexeme.length⟩ ++
        cut (position + lexeme.length) other := by
  by_cases trivial : piece = .trivia
  · subst trivial
    exact cut_trivia_of_ends position fits alike.comments
  · exact cut_append piece position nonempty (fits.of_endsAlike trivial closed alike)

/-! ## More input after a token -/

/-- A token of a source that is not its end stands somewhere in the source. More input there leaves
the tokens before it as they are, if it is not a lone point after them. -/
theorem exists_of_cut {position : Nat} {input : List UInt8} {front rest : List ReportedToken}
    {reported : ReportedToken} (parts : cut position input = front ++ reported :: rest)
    (proper : reported.token.kind ≠ .endOfInput) :
    ∃ before piece lexeme behind, input = before ++ (lexeme ++ behind) ∧ lexeme ≠ [] ∧
      Piece.Fits piece lexeme behind ∧ piece.kind? = some reported.token.kind ∧
      cut (position + before.length) (lexeme ++ behind) = reported :: rest ∧
      ∀ more, lexeme ++ behind ≠ [Byte.point] →
        cut position (input ++ more) =
          front ++ cut (position + before.length) (lexeme ++ (behind ++ more)) := by
  induction position, input using fits_induction generalizing front with
  | nil position =>
    rw [cut_nil] at parts
    cases front with
    | nil =>
      cases parts
      exact absurd rfl proper
    | cons first others => simp at parts
  | piece position first skipped left nonempty fits ih =>
    have whole := parts
    rw [cut_append first position nonempty fits] at parts
    rcases Piece.reported_append parts with ⟨rfl, known⟩ | ⟨later, rfl, others⟩
    · refine ⟨[], first, skipped, left, rfl, nonempty, fits, known, whole, fun more _ => ?_⟩
      rw [List.append_assoc]
      rfl
    · obtain ⟨before, piece, lexeme, behind, rfl, visible, fits', known, stands, settled⟩ :=
        ih others
      refine ⟨skipped ++ before, piece, lexeme, behind, by simp, visible, fits', known, ?_,
        fun more unpointed => ?_⟩
      · rw [List.length_append, ← Nat.add_assoc]
        exact stands
      · -- With digits after it, a lone point would become part of a number before it.
        have something : before ++ (lexeme ++ behind) ≠ [] := by simp [visible]
        have proper' : before ++ (lexeme ++ behind) ≠ [Byte.point] := by
          intro alone
          rcases List.append_eq_singleton_iff.mp alone with ⟨-, same⟩ | ⟨-, nothing⟩
          · exact unpointed same
          · simp [visible] at nothing
        have closed : first ≠ .malformed .unterminatedString := by
          rintro rfl
          exact something fits.1
        rw [List.append_assoc, cut_append_of_alike position nonempty fits closed
          (endsAlike_append something proper' more), settled more unpointed, List.length_append,
          ← Nat.add_assoc, List.append_assoc]

end Scanner

/-! ## The first token of more input -/

namespace Byte

/-- Whether a form starts with a token that starts with the byte. -/
def opensForm (byte : UInt8) : Bool :=
  !isBlank byte && byte != semicolon && byte != rightParen

end Byte

namespace Piece

/-- Whether a form starts with a piece. -/
def opensForm : Piece → Bool
  | .trivia => false
  | .token kind => Phrase.opens kind
  | .malformed _ => true

/-- A form starts with a number, spoilt or not. -/
theorem opensForm_ofNumber (input : List UInt8) (length : Nat) :
    (ofNumber input length).1.opensForm = true := by
  unfold ofNumber
  split
  · cases (input.take length).contains Byte.point <;> rfl
  · rfl

/-- A form starts with a name or with a malformed run. -/
theorem opensForm_ofOther (byte : UInt8) (rest : List UInt8) :
    (ofOther byte rest).1.opensForm = true := by
  unfold ofOther
  repeat' split
  all_goals rfl

/-- The first byte of a source decides whether a form starts with its first piece. -/
theorem opensForm_leading (byte : UInt8) (rest : List UInt8) :
    (leading (byte :: rest)).1.opensForm = Byte.opensForm byte := by
  by_cases right : byte = Byte.rightParen
  · rw [right]
    rfl
  by_cases semicolon : byte = Byte.semicolon
  · rw [semicolon]
    rfl
  cases blank : Byte.isBlank byte with
  | true => rw [leading_blank blank, Byte.opensForm, blank]; rfl
  | false =>
    have opens : Byte.opensForm byte = true := by simp [Byte.opensForm, blank, semicolon, right]
    rw [opens]
    simp only [leading, beq_eq_false_iff_ne.mpr right, beq_eq_false_iff_ne.mpr semicolon, blank]
    repeat' split
    any_goals rfl
    · contradiction
    · exact opensForm_ofNumber _ _
    · exact opensForm_ofOther byte rest

/-- A form starts with a piece if one starts with its token. -/
theorem opensForm_iff {piece : Piece} :
    piece.opensForm = true ↔ ∃ kind, piece.kind? = some kind ∧ Phrase.opens kind = true := by
  cases piece with
  | trivia => simp [opensForm, kind?]
  | token kind => simp [opensForm, kind?]
  | malformed cause => simp [opensForm, kind?, Phrase.opens]

end Piece

namespace Scanner

/-- If a form starts with the first token of a source, one does when more input comes. -/
theorem exists_opens_append {position : Nat} {input : List UInt8} {reported : ReportedToken}
    {rest : List ReportedToken} (parts : cut position input = reported :: rest)
    (opens : Phrase.opens reported.token.kind = true) (more : List UInt8) :
    ∃ first others, cut position (input ++ more) = first :: others ∧
      Phrase.opens first.token.kind = true := by
  induction position, input using fits_induction with
  | nil position =>
    rw [cut_nil] at parts
    cases parts
    cases opens
  | piece position piece lexeme left nonempty fits ih =>
    cases known : piece.kind? with
    | none =>
      obtain rfl : piece = .trivia := Piece.eq_trivia_of_kind? known
      rw [cut_trivia lexeme position nonempty fits] at parts
      have something : left ≠ [] := by
        rintro rfl
        rw [cut_nil] at parts
        cases parts
        cases opens
      rw [List.append_assoc,
        cut_trivia_of_ends position fits fun stop => stop.append something more]
      exact ih parts
    | some kind =>
      rw [cut_of_fits piece position fits known] at parts
      cases parts
      obtain ⟨byte, tail, rfl⟩ := List.exists_cons_of_ne_nil nonempty
      have first : (Piece.leading (byte :: (tail ++ left))).1 = piece :=
        congrArg Prod.fst (Piece.leading_of_fits fits)
      have starts : Byte.opensForm byte = true := by
        rw [← Piece.opensForm_leading byte (tail ++ left), first]
        exact Piece.opensForm_iff.mpr ⟨_, known, opens⟩
      rw [← Piece.opensForm_leading byte (tail ++ (left ++ more)), Piece.opensForm_iff] at starts
      obtain ⟨kind', known', opens'⟩ := starts
      rw [List.append_assoc, List.cons_append, cut_of_kind (List.cons_ne_nil _ _) known']
      exact ⟨_, _, rfl, opens'⟩

/-! ## Settling the last token -/

/-- Whether the second row of tokens is the first, but that the last token may have become a string
in place of an error. -/
inductive Amends : List ReportedToken → List ReportedToken → Prop where
  | same (front : List ReportedToken) : Amends front front
  | string (front : List ReportedToken) {wrong amended : ReportedToken}
      (error : wrong.token.kind = .error) (string : amended.token.kind = .string) :
    Amends (front ++ [wrong]) (front ++ [amended])

/-- The same tokens may stand in front of both rows. -/
theorem Amends.append {front settled : List ReportedToken} (amends : Amends front settled)
    (first : List ReportedToken) : Amends (first ++ front) (first ++ settled) := by
  cases amends with
  | same => exact .same _
  | string front error string =>
    rw [← List.append_assoc, ← List.append_assoc]
    exact .string (first ++ front) error string

/-- Whether after `closer` nothing that comes later changes the tokens of `input`, which then are
`settled`. -/
structure Settles (position : Nat) (input closer : List UInt8) (settled : List ReportedToken) :
    Prop where
  short : closer.length ≤ 3
  alike : ∀ more, EndsAlike input (input ++ (closer ++ more))
  amends : ∃ front, cut position input = front ++ [⟨.endOfInput (position + input.length), []⟩] ∧
    Amends front settled
  cut_append : ∀ more, cut position (input ++ (closer ++ more)) =
    settled ++ cut (position + (input.length + closer.length)) more

/-- A string that nothing closes is settled by the quotation marks that close it. -/
theorem exists_settles_string (position : Nat) {body : List UInt8}
    (unclosed : Piece.closingLength? body = none) :
    ∃ closer settled, Settles position (Byte.quotationMark :: body) closer settled := by
  obtain ⟨marks, contents, short, quotable, parts⟩ := exists_closing_marks unclosed
  have wrong : Cause.Fits .unterminatedString (Byte.quotationMark :: body) [] :=
    ⟨rfl, body, rfl, Piece.closingLength?_eq_none.mp unclosed⟩
  have string (more : List UInt8) : TokenKind.Fits .string
      (Byte.quotationMark :: (body ++ marks)) (Byte.newline :: more) :=
    ⟨contents, quotable, by rw [parts]⟩
  have error := cut_malformed .unterminatedString position wrong
  rw [List.append_nil, cut_nil] at error
  refine ⟨marks ++ [Byte.newline],
    [⟨⟨.string, ⟨position, position + (Byte.quotationMark :: (body ++ marks)).length⟩⟩, []⟩],
    ?_, ?_, ⟨_, error, .string [] rfl rfl⟩, ?_⟩
  · rw [List.length_append]
    exact Nat.succ_le_succ short
  · have proper : Byte.quotationMark :: body ≠ [Byte.point] :=
      fun alone => absurd (List.cons.inj alone).1 (by decide)
    exact fun more => endsAlike_append (List.cons_ne_nil _ _) proper _
  · intro more
    have same : Byte.quotationMark :: body ++ (marks ++ [Byte.newline] ++ more) =
        Byte.quotationMark :: (body ++ marks) ++ Byte.newline :: more := by simp
    have stop : position + (Byte.quotationMark :: (body ++ marks)).length + 1 =
        position + ((Byte.quotationMark :: body).length + (marks ++ [Byte.newline]).length) := by
      simp only [List.length_cons, List.length_append, List.length_nil]
      omega
    rw [same, cut_token .string position (string more), cut_blank rfl, stop]
    rfl

/-- Every source is settled by at most three bytes. -/
theorem exists_settles (position : Nat) (input : List UInt8) :
    ∃ closer settled, Settles position input closer settled := by
  induction position, input using fits_induction with
  | nil position =>
    refine ⟨[Byte.newline], [], by decide, endsAlike_newline, ⟨[], cut_nil position, .same []⟩, ?_⟩
    intro more
    exact cut_blank rfl position more
  | piece position piece lexeme rest nonempty fits ih =>
    by_cases unclosed : piece = .malformed .unterminatedString
    · rw [unclosed] at fits
      obtain ⟨rfl, body, rfl, open_end⟩ := fits
      rw [List.append_nil]
      exact exists_settles_string position (Piece.closingLength?_eq_none.mpr open_end)
    · -- The piece stays as it is, because what settles the rest ends it alike.
      obtain ⟨closer, settled, settles⟩ := ih
      obtain ⟨front, parts, amends⟩ := settles.amends
      refine ⟨closer, piece.reported ⟨position, position + lexeme.length⟩ ++ settled,
        settles.short, fun more => ?_, ⟨_, ?_, amends.append _⟩, fun more => ?_⟩
      · rw [List.append_assoc]
        exact (settles.alike more).append lexeme
      · rw [cut_append piece position nonempty fits, parts, List.length_append, Nat.add_assoc,
          List.append_assoc]
      · rw [List.append_assoc,
          cut_append_of_alike position nonempty fits unclosed (settles.alike more),
          settles.cut_append, List.length_append, List.append_assoc]
        simp only [Nat.add_assoc]

end Scanner

end LispReader

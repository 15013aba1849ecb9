import LispReader.Proofs.ReportOrder
import LispReader.Proofs.SpanNesting
import LispReader.Proofs.WalkOrder

/-!
# The values of integer literals

The lexeme of an integer token is a sign or none and one digit or more, and it writes the sum of its
digits by their places. However long it is, its form holds just this number if it is one of 64 bits,
and nothing is found about it; else the form stands in for something unreadable, and that the
literal is out of range is found once. So it is in every read: the forms of its integer tokens are
these, and the findings of this kind are about these tokens only.
-/

namespace LispReader

/-! ## Numbers and numerals -/

namespace Numeral

/-- The sum of the digits, each times a power of ten for the digits after it. -/
def placeValue : List UInt8 → Nat
  | [] => 0
  | digit :: rest => digitValue digit * Decimal.powerOfTen rest.length + placeValue rest

/-- Digits read after a number add their places to it. -/
theorem valueAfter_eq_placeValue (high : Nat) (digits : List UInt8) :
    valueAfter high digits = high * Decimal.powerOfTen digits.length + placeValue digits := by
  induction digits generalizing high with
  | nil => exact (Nat.mul_one high).symm
  | cons digit rest ih =>
    have power : Decimal.powerOfTen (digit :: rest).length =
        10 * Decimal.powerOfTen rest.length := Nat.mul_comm _ 10
    rw [valueAfter_cons, ih, placeValue, power, Nat.add_mul, Nat.mul_comm 10 high, Nat.mul_assoc,
      Nat.add_assoc]

/-- Reading digits one after the other gives the sum of their places. -/
theorem value_eq_placeValue (digits : List UInt8) : value digits = placeValue digits := by
  rw [value, valueAfter_eq_placeValue, Nat.zero_mul, Nat.zero_add]

/-- Whether a number is one of 64 bits in two's complement. -/
def InRange (number : Int) : Prop :=
  -9223372036854775808 ≤ number ∧ number ≤ 9223372036854775807

/-- The numbers that fit in 64 bits are those in range. -/
theorem fitsInt64_iff {number : Int} : fitsInt64 number = true ↔ InRange number := by
  rw [fitsInt64, Bool.and_eq_true, decide_eq_true_eq, decide_eq_true_eq]
  rfl

end Numeral

namespace Lexeme

/-- Whether a lexeme is a numeral for `number`: a digit or more, with a sign in front or without. -/
inductive Writes : List UInt8 → Int → Prop where
  | plain {digits : List UInt8} (numeral : Numeral.isNumeral digits = true) :
    Writes digits (Numeral.placeValue digits)
  | plus {digits : List UInt8} (numeral : Numeral.isNumeral digits = true) :
    Writes (Byte.plus :: digits) (Numeral.placeValue digits)
  | minus {digits : List UInt8} (numeral : Numeral.isNumeral digits = true) :
    Writes (Byte.minus :: digits) (-Numeral.placeValue digits)

/-- A lexeme that looks like an integer writes one. -/
theorem IsInteger.exists_writes {lexeme : List UInt8} (shaped : IsInteger lexeme) :
    ∃ number, Writes lexeme number := by
  obtain ⟨sign, digits, rfl, rfl | ⟨byte, rfl, isSign⟩, numeral⟩ := shaped
  · exact ⟨_, .plain numeral⟩
  · simp only [Byte.isSign, Bool.or_eq_true, beq_iff_eq] at isSign
    rcases isSign with rfl | rfl
    · exact ⟨_, .plus numeral⟩
    · exact ⟨_, .minus numeral⟩

/-- A lexeme is read as the number that it writes. -/
theorem Writes.readInt? {lexeme : List UInt8} {number : Int} (writes : Writes lexeme number) :
    Numeral.readInt? lexeme = some number := by
  cases writes with
  | plain numeral =>
    have read := readInt?_append (.inl rfl) numeral
    rw [Numeral.value_eq_placeValue] at read
    exact read
  | plus numeral =>
    have read := readInt?_append (.inr ⟨Byte.plus, rfl, rfl⟩) numeral
    rw [Numeral.value_eq_placeValue] at read
    exact read
  | minus numeral =>
    have read := readInt?_append (.inr ⟨Byte.minus, rfl, rfl⟩) numeral
    rw [Numeral.value_eq_placeValue] at read
    exact read

/-- No lexeme writes two numbers. -/
theorem Writes.unique {lexeme : List UInt8} {number other : Int} (writes : Writes lexeme number)
    (writes' : Writes lexeme other) : other = number :=
  Option.some.inj (writes'.readInt?.symm.trans writes.readInt?)

/-- A numeral for a number in range has this as its value of 64 bits. -/
theorem Writes.exists_readInt64? {lexeme : List UInt8} {number : Int}
    (writes : Writes lexeme number) (inRange : Numeral.InRange number) :
    ∃ value : Int64, value.toInt = number ∧ Numeral.readInt64? lexeme = some value := by
  refine ⟨.ofInt number, Int64.toInt_ofInt_of_le inRange.1 (Int.lt_add_one_of_le inRange.2), ?_⟩
  rw [Numeral.readInt64?, writes.readInt?]
  exact if_pos (Numeral.fitsInt64_iff.mpr inRange)

/-- A numeral has no value of 64 bits exactly if its number is out of range. -/
theorem Writes.readInt64?_eq_none {lexeme : List UInt8} {number : Int}
    (writes : Writes lexeme number) :
    Numeral.readInt64? lexeme = none ↔ ¬ Numeral.InRange number := by
  rw [Numeral.readInt64?, writes.readInt?, ← Numeral.fitsInt64_iff]
  simp

end Lexeme

/-! ## Integer tokens -/

namespace Scanner

/-- What a call of a scanner writes are tokens that are still to be cut off. -/
theorem exists_of_mem_appended {scanner : Scanner} {window : Window Token} {token : Token}
    (member : token ∈ (scanner.scan window).appended window) :
    ∃ reported ∈ cut scanner.position scanner.rest, reported.token = token := by
  rw [(takes_scan scanner window).appended] at member
  obtain ⟨reported, taken, rfl⟩ := List.mem_map.mp member
  have upcoming := List.mem_of_mem_take taken
  refine ⟨reported, ?_, rfl⟩
  rw [Scanner.upcoming] at upcoming
  split at upcoming
  · exact upcoming
  · cases upcoming
  · cases upcoming

/-- The lexeme of an integer token writes a number. -/
theorem exists_writes {before rest : List UInt8} {reported : ReportedToken}
    (member : reported ∈ cut before.length rest) (known : reported.token.kind = .integer) :
    ∃ number, Lexeme.Writes (reported.token.lexeme (before ++ rest)) number := by
  obtain ⟨after, fits⟩ := exists_fits_of_mem_cut member (by simp [known]) (by simp [known])
  rw [known] at fits
  exact fits.1.exists_writes

end Scanner

namespace Token

/-- Whether a token becomes `form` and findings are made about it, whatever the workspace. Only the
room for a form can be missing, and the findings are made all the same. -/
def Becomes (source : List UInt8) (token : Token) (form : Form) (findings : List Finding) : Prop :=
  ∀ workspace : Workspace,
    let told := { workspace with findings := workspace.findings ++ findings }
    (∃ arena, Build.leaf token source workspace = .ok form { told with arena := arena }) ∨
      ∃ problem, Build.leaf token source workspace = .error (.arena problem) told ∧
        workspace.arena.remaining.toNat < 39

/-- A leaf becomes the form that its contents are read as. -/
theorem becomes_of_content (kind : LeafKind) {span : Span} {source : List UInt8} {form : Form}
    {findings : List Finding}
    (reads : ∀ workspace, Build.content kind span (span.slice source) workspace =
      .ok form { workspace with findings := workspace.findings ++ findings }) :
    Becomes source ⟨kind.tokenKind, span⟩ form findings := by
  intro workspace told
  have sizes : Build.formBytes.toNat = 32 ∧ Build.wordAlignment.toNat = 8 := ⟨rfl, rfl⟩
  rw [Build.leaf_eq, Build.bind_of_ok (reads workspace)]
  rcases Arena.allocate_bound workspace.arena Build.formBytes
      (show Arena.isPowerOfTwo Build.wordAlignment = true by decide) with
    ⟨address, arena, granted, -, -⟩ | ⟨problem, refused, full⟩
  · have paid : Build.reserveForm told = .ok () { told with arena := arena } := by
      simp only [Build.reserveForm, Build.reserve, told, granted]
    exact .inl ⟨arena, Build.bind_of_ok paid _⟩
  · have unpaid : Build.reserveForm told = .error (.arena problem) told := by
      simp only [Build.reserveForm, Build.reserve, told, refused]
    have inside := workspace.arena.offset_le_capacity
    have left := workspace.arena.toNat_remaining
    exact .inr ⟨problem, Build.bind_of_error unpaid _, by omega⟩

/-- An integer token becomes its value if it has one. -/
theorem becomes_integer {source : List UInt8} {token : Token} {value : Int64}
    (known : token.kind = .integer)
    (read : Numeral.readInt64? (token.lexeme source) = some value) :
    token.Becomes source (.integer token.span value) [] := by
  obtain ⟨kind, span⟩ := token
  cases known
  refine becomes_of_content .integer fun workspace => ?_
  rw [Token.lexeme] at read
  rw [List.append_nil, Build.content, Build.integer, read]
  rfl

/-- An integer token without a value is found to be out of range, and something unreadable stands in
for it. -/
theorem becomes_error {source : List UInt8} {token : Token} (known : token.kind = .integer)
    (unread : Numeral.readInt64? (token.lexeme source) = none) :
    token.Becomes source (.error token.span) [⟨.integerOutOfRange, token.span⟩] := by
  obtain ⟨kind, span⟩ := token
  cases known
  refine becomes_of_content .integer fun workspace => ?_
  rw [Token.lexeme] at unread
  rw [Build.content, Build.integer, unread]
  rfl

/-- Whether a token is an integer without a value. -/
def isRefused (source : List UInt8) (token : Token) : Bool :=
  token.kind = .integer ∧ Numeral.readInt64? (token.lexeme source) = none

/-- What is found to be out of range when tokens are converted are the integers without a value. -/
theorem filter_conversions (source : List UInt8) (tokens : List Token) :
    (tokens.flatMap (conversions source)).filter (·.cause = .integerOutOfRange) =
      (tokens.filter (isRefused source)).map fun token => ⟨.integerOutOfRange, token.span⟩ := by
  induction tokens with
  | nil => rfl
  | cons token rest ih =>
    rw [List.flatMap_cons, List.filter_append, ih]
    obtain ⟨kind, span⟩ := token
    cases kind with
    | integer =>
      cases read : Numeral.readInt64? (Token.lexeme ⟨.integer, span⟩ source) <;>
        simp [conversions, isRefused, read]
    | atom =>
      simp only [conversions]
      split <;> simp [isRefused]
    | leftParen | rightParen | quote | float | string | endOfInput | error =>
      simp [conversions, isRefused]

/-- What is found when an integer token is converted is that it has no value. -/
theorem refused_of_mem_conversions {source : List UInt8} {token : Token} {finding : Finding}
    (known : token.kind = .integer) (found : finding ∈ token.conversions source) :
    finding = ⟨.integerOutOfRange, token.span⟩ ∧ token.isRefused source = true := by
  simp only [conversions, known] at found
  cases read : Numeral.readInt64? (token.lexeme source) with
  | some value =>
    rw [read] at found
    cases found
  | none =>
    rw [read] at found
    exact ⟨List.mem_singleton.mp found, by simp [isRefused, known, read]⟩

/-- Of tokens in order, no two cover the same bytes if they cover any. -/
theorem Ordered.eq_of_span {tokens : List Token} (ordered : Ordered tokens) {first second : Token}
    (member : first ∈ tokens) (member' : second ∈ tokens)
    (proper : first.span.start < first.span.stop) (same : first.span = second.span) :
    first = second := by
  induction tokens with
  | nil => cases member
  | cons token rest ih =>
    obtain ⟨-, others, behind⟩ := ordered.of_cons
    rcases List.mem_cons.mp member with rfl | later <;>
      rcases List.mem_cons.mp member' with rfl | later'
    · rfl
    · have after := behind second later'
      rw [← same] at after
      omega
    · have after := behind first later
      rw [← same] at after
      omega
    · exact ih others later later'

end Token

namespace TokenFeed

variable {source : List UInt8} {size taken : Nat} {converted : List Token}
  {findings : List Finding}

/-- What a read finds to be out of range are the integers without a value that it has converted. -/
theorem Told.filter_outOfRange (told : Told source size taken converted findings) :
    findings.filter (·.cause = .integerOutOfRange) =
      (converted.filter (Token.isRefused source)).map
        fun token => ⟨.integerOutOfRange, token.span⟩ := by
  have nonlexical : (fun finding : Finding => decide (finding.cause = .integerOutOfRange)) =
      fun finding => decide (finding.cause = .integerOutOfRange) && !finding.cause.isLexical := by
    funext finding
    cases finding.cause <;> rfl
  rw [← Token.filter_conversions, ← told.others, List.filter_filter, ← nonlexical]

/-- A read finds nothing about the bytes of an integer but that it has no value. -/
theorem Told.refused_of_span (told : Told source size taken converted findings)
    (inside : ∀ token ∈ converted, token ∈ Scanner.tokens source) {token : Token}
    (listed : token ∈ Scanner.tokens source) (known : token.kind = .integer) {finding : Finding}
    (member : finding ∈ findings) (same : finding.span = token.span) :
    finding = ⟨.integerOutOfRange, token.span⟩ ∧
      token ∈ converted.filter (Token.isRefused source) := by
  have proper := (Scanner.visible_of_mem_tokens listed (by simp [known])).start_lt_stop
  have only {other : Token} (listed' : other ∈ Scanner.tokens source)
      (spanned : finding.span = other.span) : token = other :=
    (Scanner.scanned_tokens source).ordered.eq_of_span listed listed' proper
      (same.symm.trans spanned)
  rcases told.exists_about member with ⟨other, listed', error, spanned⟩ | ⟨other, made, found⟩
  · rw [← only listed' spanned, known] at error
    cases error
  · obtain rfl := only (inside other made) (Token.of_mem_conversions found).1
    obtain ⟨refusal, unread⟩ := Token.refused_of_mem_conversions known found
    exact ⟨refusal, List.mem_filter.mpr ⟨made, unread⟩⟩

end TokenFeed

/-! ## Forms of leaves in a tree -/

namespace Phrase

mutual

/-- The form of a leaf is among the forms that its phrase is read as. -/
theorem exists_mem_preorder {source : List UInt8} (symbols : SymbolTable) {token : Token}
    {kind : LeafKind} (known : token.kind = kind.tokenKind) (phrase : Phrase)
    (listed : token ∈ phrase.tokens) :
    ∃ names, (kind.convert token.span (token.lexeme source) names).value ∈
      (phrase.convert source symbols).value.preorder := by
  match phrase with
  | .leaf other span =>
    obtain rfl := List.mem_singleton.mp listed
    obtain rfl := LeafKind.tokenKind_inj.mp known
    refine ⟨symbols, ?_⟩
    rw [Form.preorder_eq_children]
    exact List.mem_cons_self
  | .list opening items closing =>
    rcases List.mem_cons.mp listed with rfl | behind
    · cases kind <;> cases known
    · rcases List.mem_append.mp behind with inside | last
      · obtain ⟨names, member⟩ := exists_mem_preorderAll symbols known items inside
        exact ⟨names, List.mem_cons_of_mem _ member⟩
      · obtain rfl := List.mem_singleton.mp last
        cases kind <;> cases known
  | .quote mark quoted =>
    rcases List.mem_cons.mp listed with rfl | behind
    · cases kind <;> cases known
    · obtain ⟨names, member⟩ := exists_mem_preorder symbols known quoted behind
      exact ⟨names, List.mem_cons_of_mem _ member⟩

/-- The form of a leaf is among the forms that its phrases are read as. -/
theorem exists_mem_preorderAll {source : List UInt8} (symbols : SymbolTable) {token : Token}
    {kind : LeafKind} (known : token.kind = kind.tokenKind) (phrases : List Phrase)
    (listed : token ∈ tokensAll phrases) :
    ∃ names, (kind.convert token.span (token.lexeme source) names).value ∈
      Form.preorderAll (convertAll source symbols phrases).value := by
  match phrases with
  | [] => cases listed
  | phrase :: rest =>
    rcases List.mem_append.mp listed with first | later
    · obtain ⟨names, member⟩ := exists_mem_preorder symbols known phrase first
      exact ⟨names, List.mem_append_left _ member⟩
    · obtain ⟨names, member⟩ := exists_mem_preorderAll _ known rest later
      exact ⟨names, List.mem_append_right _ member⟩

end

end Phrase

namespace Session

variable {session : Session} {arena : Arena} {source : List UInt8}

/-- A walk of what is read meets the form of every integer token. -/
theorem mem_walk_of_integer {tree : Tree} {token : Token}
    (succeeds : (session.read arena source).result = .ok tree)
    (listed : token ∈ Scanner.tokens source) (known : token.kind = .integer) :
    (LeafKind.integer.convert token.span (token.lexeme source) session.symbols).value ∈
      tree.walk := by
  obtain ⟨phrases, derives, rfl, -⟩ := gives_of_read succeeds
  have inside : token ∈ Phrase.tokensAll phrases := by
    rw [← derives.tokens] at listed
    rcases List.mem_append.mp listed with inside | last
    · exact inside
    · rw [List.mem_singleton.mp last] at known
      cases known
  have leaf : token.kind = LeafKind.integer.tokenKind := known
  obtain ⟨names, member⟩ := Phrase.exists_mem_preorderAll session.symbols leaf phrases inside
  rw [Tree.walk, Form.walk_eq_preorderAll]
  -- The names known when an integer is read do not matter.
  have anyhow : (LeafKind.integer.convert token.span (token.lexeme source) names).value =
      (LeafKind.integer.convert token.span (token.lexeme source) session.symbols).value := by
    simp only [LeafKind.convert]
    split <;> rfl
  exact anyhow ▸ member

/-- An integer token has no value exactly if the number that its lexeme writes is out of range. -/
theorem isRefused_iff {token : Token} (listed : token ∈ Scanner.tokens source) :
    token.isRefused source = true ↔ token.kind = .integer ∧
      ∃ number, Lexeme.Writes (token.lexeme source) number ∧ ¬ Numeral.InRange number := by
  rw [Token.isRefused, decide_eq_true_iff]
  refine and_congr_right fun known => ⟨fun unread => ?_, fun ⟨number, writes, outside⟩ => ?_⟩
  · have shaped := (Scanner.scanned_tokens source).admits token listed .integer known
    obtain ⟨number, writes⟩ := Lexeme.IsInteger.exists_writes shaped
    exact ⟨number, writes, writes.readInt64?_eq_none.mp unread⟩
  · exact writes.readInt64?_eq_none.mpr outside

/-- The lexeme of every integer token that a scanner writes, wherever it stands, is a numeral for one
number. The token becomes this number if it is one of 64 bits, and nothing is found about it; else
it becomes something unreadable and is found to be out of range, once. So a walk of what is read
meets these forms, and among all that is reported, whatever comes of the read, what is said about
integers is that those out of range are, once for each that is made into a form. -/
theorem read_integers_exactly (session : Session) (arena : Arena) (before rest : List UInt8) :
    let source := before ++ rest
    let reading := session.read arena source
    (∀ phase window,
      ∀ token ∈ ((Scanner.mk before.length rest phase).scan window).appended window,
        token.kind = .integer → ∃ number, Lexeme.Writes (token.lexeme source) number ∧
          (∀ other, Lexeme.Writes (token.lexeme source) other → other = number) ∧
          (Numeral.InRange number → ∃ value : Int64, value.toInt = number ∧
            token.Becomes source (.integer token.span value) []) ∧
          (¬ Numeral.InRange number →
            token.Becomes source (.error token.span) [⟨.integerOutOfRange, token.span⟩])) ∧
      (∀ tree, reading.result = .ok tree →
        ∀ token ∈ Scanner.tokens source, token.kind = .integer →
          ∀ number, Lexeme.Writes (token.lexeme source) number →
            (Numeral.InRange number → ∃ value : Int64, value.toInt = number ∧
              Form.integer token.span value ∈ tree.walk) ∧
            (¬ Numeral.InRange number → Form.error token.span ∈ tree.walk)) ∧
      ∃ (findings : List Finding) (refused : List Token),
        reading.session.diagnostics = session.diagnostics ++ findings.map Finding.diagnostic ∧
          (findings.filter (·.cause = .integerOutOfRange)).map Finding.diagnostic =
            refused.map (fun token => .error token.span "integer literal out of range") ∧
          refused.Sublist (session.converted arena source) ∧
          (∀ token ∈ session.converted arena source, token ∈ refused ↔ token.kind = .integer ∧
            ∃ number, Lexeme.Writes (token.lexeme source) number ∧ ¬ Numeral.InRange number) ∧
          ∀ token ∈ Scanner.tokens source, token.kind = .integer →
            ∀ finding ∈ findings, finding.span = token.span →
              finding = ⟨.integerOutOfRange, token.span⟩ ∧ token ∈ refused := by
  intro source reading
  refine ⟨fun phase window token member known => ?_,
    fun tree succeeds token listed known number writes => ⟨fun inRange => ?_, fun outside => ?_⟩, ?_⟩
  · obtain ⟨reported, cut, rfl⟩ := Scanner.exists_of_mem_appended member
    obtain ⟨number, writes⟩ := Scanner.exists_writes cut known
    refine ⟨number, writes, fun other writes' => writes.unique writes', fun inRange => ?_,
      fun outside => ?_⟩
    · obtain ⟨value, same, read⟩ := writes.exists_readInt64? inRange
      exact ⟨value, same, Token.becomes_integer known read⟩
    · exact Token.becomes_error known (writes.readInt64?_eq_none.mpr outside)
  · obtain ⟨value, same, read⟩ := writes.exists_readInt64? inRange
    have met := mem_walk_of_integer succeeds listed known
    simp only [LeafKind.convert, read] at met
    exact ⟨value, same, met⟩
  · have met := mem_walk_of_integer succeeds listed known
    simp only [LeafKind.convert, writes.readInt64?_eq_none.mpr outside] at met
    exact met
  · obtain ⟨findings, reported, told⟩ := session.told_read arena source
    have inside : ∀ token ∈ session.converted arena source, token ∈ Scanner.tokens source :=
      fun _ => mem_tokens_of_mem_converted
    refine ⟨findings, (session.converted arena source).filter (Token.isRefused source), reported,
      ?_, List.filter_sublist, fun token made => ?_,
      fun token listed known finding member same =>
        told.refused_of_span inside listed known member same⟩
    · rw [told.filter_outOfRange, List.map_map]
      rfl
    · rw [List.mem_filter, isRefused_iff (inside token made)]
      exact and_iff_right made

/-- With a minus sign the digits of the first number out of range are the last that is in range. A
scanner that stands behind the sign reads them without it. -/
theorem read_integers_exactly_sign :
    let digits : List UInt8 := [0x39, 0x32, 0x32, 0x33, 0x33, 0x37, 0x32, 0x30, 0x33, 0x36, 0x38,
      0x35, 0x34, 0x37, 0x37, 0x35, 0x38, 0x30, 0x38]
    let source := Byte.minus :: digits
    let signed : Token := ⟨.integer, ⟨0, 20⟩⟩
    let plain : Token := ⟨.integer, ⟨1, 20⟩⟩
    signed ∈ ((Scanner.mk 0 source .scanning).scan (.blank 1)).appended (.blank 1) ∧
      signed.Becomes source (.integer ⟨0, 20⟩ Int64.minValue) [] ∧
      plain ∈ ((Scanner.mk 1 digits .scanning).scan (.blank 1)).appended (.blank 1) ∧
      plain.Becomes source (.error ⟨1, 20⟩) [⟨.integerOutOfRange, ⟨1, 20⟩⟩] := by
  intro digits source signed plain
  have written (lexeme : List UInt8) (position : Nat) (shaped : Lexeme.IsInteger lexeme) :
      (⟨.integer, ⟨position, position + lexeme.length⟩⟩ : Token) ∈
        ((Scanner.mk position lexeme .scanning).scan (.blank 1)).appended (.blank 1) := by
    have fits : TokenKind.Fits .integer lexeme [] :=
      ⟨shaped, fun _ first => (nomatch first), fun ⟨_, _, parts, _⟩ => (nomatch parts)⟩
    have cut := Scanner.cut_token .integer position fits
    rw [List.append_nil] at cut
    rw [(Scanner.takes_scan _ _).appended, Scanner.upcoming]
    dsimp only
    rw [cut]
    exact List.mem_cons_self
  have numeral : Numeral.isNumeral digits = true := rfl
  have signed_in := written source 0 ⟨[Byte.minus], digits, rfl, .inr ⟨_, rfl, rfl⟩, numeral⟩
  have plain_in := written digits 1 ⟨[], digits, rfl, .inl rfl, numeral⟩
  have arena : Arena := ⟨Arena.blockAddress, 64, 0, by decide, by decide, by decide⟩
  have session : Session := .create .default
  obtain ⟨number, -, unique, inRange, -⟩ :=
    (read_integers_exactly session arena [] source).1 .scanning (.blank 1) signed signed_in rfl
  obtain ⟨number', -, unique', -, outside⟩ :=
    (read_integers_exactly session arena [Byte.minus] digits).1 .scanning (.blank 1) plain plain_in
      rfl
  obtain rfl : -9223372036854775808 = number := unique _ (.minus numeral)
  obtain rfl : 9223372036854775808 = number' := unique' _ (.plain numeral)
  obtain ⟨value, same, becomes⟩ := inRange ⟨by decide, by decide⟩
  obtain rfl : value = Int64.minValue := Int64.toInt_inj.mp same
  exact ⟨signed_in, becomes, plain_in, outside fun bounds => absurd bounds.2 (by decide)⟩

end Session

end LispReader

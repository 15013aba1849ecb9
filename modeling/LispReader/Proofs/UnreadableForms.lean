import LispReader.Proofs.Acceptance
import LispReader.Proofs.ChunkInvariance

/-!
# Unreadable forms

A form that stands in for something unreadable comes from one of two places: the scanner made an
error token of it, or its token has no value. Either reports it once, and nothing else is reported.
So once a read has gone through, the spans of what it reported are those of the unreadable forms,
each as often, and the session holds an error exactly if a walk of the tree meets such a form.
-/

namespace LispReader

namespace Form

mutual

/-- The spans of the unreadable forms in a form, in the order of a walk. -/
def errorSpans : Form → List Span
  | .list _ items => errorSpansOf items
  | .quote _ quoted => quoted.errorSpans
  | .error span => [span]
  | .symbol _ _ | .integer _ _ | .float _ _ | .string _ _ => []

/-- The spans of the unreadable forms in a list of forms. -/
def errorSpansOf : List Form → List Span
  | [] => []
  | form :: rest => form.errorSpans ++ errorSpansOf rest

end

/-- The unreadable forms of two lists are those of one and then those of the other. -/
theorem errorSpansOf_append (first second : List Form) :
    errorSpansOf (first ++ second) = errorSpansOf first ++ errorSpansOf second := by
  induction first with
  | nil => rfl
  | cons form rest ih => rw [List.cons_append, errorSpansOf, ih, errorSpansOf, List.append_assoc]

/-- The unreadable forms in a form are the form itself, if it is one, and those in its children. -/
theorem errorSpans_eq_children (form : Form) :
    form.errorSpans = ([form].filter isError).map span ++ errorSpansOf form.children := by
  cases form with
  | error place => rfl
  | _ => simp [errorSpans, errorSpansOf, children, isError]

/-- A walk meets the unreadable forms, each once and in their order. -/
theorem map_span_filter_walk (worklist : List Form) :
    ((walk worklist).filter isError).map span = errorSpansOf worklist := by
  fun_induction walk worklist with
  | case1 => rfl
  | case2 form rest ih =>
    rw [← List.singleton_append, List.filter_append, List.map_append, ih, errorSpansOf_append,
      errorSpansOf, errorSpans_eq_children, List.append_assoc]

end Form

namespace Span

/-- The spans of the error tokens in a row of tokens, in order. -/
def ofErrors (tokens : List Token) : List Span :=
  (tokens.filter (·.kind = .error)).map Token.span

/-- The error tokens of two rows are those of one and then those of the other. -/
@[simp] theorem ofErrors_append (first second : List Token) :
    ofErrors (first ++ second) = ofErrors first ++ ofErrors second := by
  simp [ofErrors]

/-- A token of another kind is no error token. -/
theorem ofErrors_cons_of_ne {token : Token} (other : token.kind ≠ .error) (rest : List Token) :
    ofErrors (token :: rest) = ofErrors rest := by
  simp [ofErrors, other]

end Span

/-! ## What a phrase is read as -/

namespace Cause

/-- Whether a token has no value for this cause: its name is not text, or its integer is out of
range. -/
def Refuses (cause : Cause) : Prop := cause = .symbolNotUtf8 ∨ cause = .integerOutOfRange

end Cause

namespace LeafKind

/-- A leaf is read as something unreadable if it is an error token or if it is found to have no
value, and not for both reasons. -/
theorem errorSpans_convert (kind : LeafKind) (span : Span) (lexeme : List UInt8)
    (symbols : SymbolTable) :
    (kind.convert span lexeme symbols).value.errorSpans =
      Span.ofErrors [⟨kind.tokenKind, span⟩] ++
        (kind.convert span lexeme symbols).findings.map Finding.span := by
  cases kind with
  | atom | integer | float => simp only [convert]; split <;> rfl
  | string | error => rfl

/-- What is found about a leaf is that its name is not text or that its integer is out of range. -/
theorem refuses_of_mem_convert {kind : LeafKind} {span : Span} {lexeme : List UInt8}
    {symbols : SymbolTable} (admits : kind.Admits lexeme) {finding : Finding}
    (member : finding ∈ (kind.convert span lexeme symbols).findings) : finding.cause.Refuses := by
  cases kind with
  | atom =>
    simp only [convert] at member
    split at member
    · cases member
    · exact .inl (congrArg Finding.cause (List.mem_singleton.mp member))
  | integer =>
    simp only [convert] at member
    split at member
    · cases member
    · exact .inr (congrArg Finding.cause (List.mem_singleton.mp member))
  | float =>
    obtain ⟨number, stands⟩ := admits.exists_read?
    simp only [convert, stands] at member
    cases member
  | string | error => cases member

end LeafKind

namespace Phrase

mutual

/-- The unreadable forms that a phrase is read as are its error tokens and the tokens found to have
no value. -/
theorem perm_errorSpans_convert (source : List UInt8) (symbols : SymbolTable) (phrase : Phrase) :
    (phrase.convert source symbols).value.errorSpans.Perm
      (Span.ofErrors phrase.tokens ++
        (phrase.convert source symbols).findings.map Finding.span) := by
  match phrase with
  | .leaf kind span => exact .of_eq (kind.errorSpans_convert span _ symbols)
  | .list opening items closing =>
    have inside := perm_errorSpansOf_convertAll source symbols items
    have marks : Span.ofErrors (list opening items closing).tokens =
        Span.ofErrors (tokensAll items) := by
      rw [tokens, Span.ofErrors_cons_of_ne (by simp), Span.ofErrors_append]
      exact List.append_nil _
    rw [marks]
    exact inside
  | .quote mark quoted =>
    have inside := perm_errorSpans_convert source symbols quoted
    rw [tokens, Span.ofErrors_cons_of_ne (by simp)]
    exact inside

/-- The unreadable forms that phrases are read as are their error tokens and the tokens found to
have no value. -/
theorem perm_errorSpansOf_convertAll (source : List UInt8) (symbols : SymbolTable)
    (phrases : List Phrase) :
    (Form.errorSpansOf (convertAll source symbols phrases).value).Perm
      (Span.ofErrors (tokensAll phrases) ++
        (convertAll source symbols phrases).findings.map Finding.span) := by
  match phrases with
  | [] => exact .nil
  | phrase :: rest =>
    have first := perm_errorSpans_convert source symbols phrase
    have others := perm_errorSpansOf_convertAll source (phrase.convert source symbols).symbols rest
    simp only [convertAll, Form.errorSpansOf, tokensAll, Span.ofErrors_append, List.map_append]
    -- The error tokens of the others move in front of what was found about the first.
    refine (first.append others).trans ?_
    rw [List.append_assoc, List.append_assoc]
    refine List.Perm.append_left _ ?_
    rw [← List.append_assoc, ← List.append_assoc]
    exact List.perm_append_comm.append_right _

end

mutual

/-- What is found about a phrase are names that are not text and integers out of range. -/
theorem refuses_of_mem_convert {source : List UInt8} {symbols : SymbolTable} (phrase : Phrase)
    (scanned : Token.Scanned source phrase.tokens) {finding : Finding}
    (member : finding ∈ (phrase.convert source symbols).findings) : finding.cause.Refuses := by
  match phrase with
  | .leaf kind span =>
    exact LeafKind.refuses_of_mem_convert
      (scanned.admits ⟨kind.tokenKind, span⟩ (List.mem_singleton_self _) kind rfl) member
  | .list opening items closing => exact refuses_of_mem_convertAll items scanned.items member
  | .quote mark quoted => exact refuses_of_mem_convert quoted scanned.quoted member

/-- What is found about phrases are names that are not text and integers out of range. -/
theorem refuses_of_mem_convertAll {source : List UInt8} {symbols : SymbolTable}
    (phrases : List Phrase) (scanned : Token.Scanned source (tokensAll phrases))
    {finding : Finding} (member : finding ∈ (convertAll source symbols phrases).findings) :
    finding.cause.Refuses := by
  match phrases with
  | [] => cases member
  | phrase :: rest =>
    obtain ⟨front, back⟩ := scanned.of_append
    rcases List.mem_append.mp member with first | later
    · exact refuses_of_mem_convert phrase front first
    · exact refuses_of_mem_convertAll rest back later

end

end Phrase

/-! ## What is reported -/

namespace Scanner

/-- The findings of a scanner are about the error tokens of its source, one for each, in order. -/
theorem map_span_findings (source : List UInt8) :
    (findings source).map Finding.span = Span.ofErrors (tokens source) := by
  rw [tokens_eq_cut]
  exact span_flatMap_findings (cut 0 source) fun _ member => member

end Scanner

namespace Session

/-- A read that goes through reports one finding for each unreadable form of its tree and none for
anything else. What is found is a lexical matter, a name that is not text or an integer out of
range. -/
theorem exists_findings_of_read {session : Session} {arena : Arena} {source : List UInt8}
    {tree : Tree} (succeeds : (session.read arena source).result = .ok tree) :
    ∃ findings : List Finding,
      (session.read arena source).session.diagnostics =
          session.diagnostics ++ findings.map Finding.diagnostic ∧
        (findings.map Finding.span).Perm ((tree.walk.filter Form.isError).map Form.span) ∧
        ∀ finding ∈ findings, finding.cause.isLexical = true ∨ finding.cause.Refuses := by
  obtain ⟨phrases, derives, rfl, gives⟩ := gives_of_read succeeds
  obtain ⟨findings, reported, lexical, others⟩ := gives.diagnostics
  refine ⟨findings, reported, ?_, ?_⟩
  · have tokens : Span.ofErrors (Scanner.tokens source) =
        Span.ofErrors (Phrase.tokensAll phrases) := by
      rw [← derives.tokens, Span.ofErrors_append]
      exact List.append_nil _
    have parts := (List.filter_append_perm (fun finding => finding.cause.isLexical) findings).map
      Finding.span
    rw [lexical, others, List.map_append, Scanner.map_span_findings, tokens] at parts
    rw [Tree.walk, Form.map_span_filter_walk]
    exact parts.symm.trans (Phrase.perm_errorSpansOf_convertAll source session.symbols phrases).symm
  · intro finding member
    cases kind : finding.cause.isLexical with
    | true => exact .inl rfl
    | false =>
      have converted : finding ∈ findings.filter fun finding => !finding.cause.isLexical :=
        List.mem_filter.mpr ⟨member, by rw [kind]; rfl⟩
      rw [others] at converted
      exact .inr (Phrase.refuses_of_mem_convertAll phrases derives.scanned converted)

end Session

/-- Findings are reported as errors, so there is an error among them if there is any. -/
theorem Finding.anyError_diagnostic (findings : List Finding) :
    Diagnostic.anyError (findings.map diagnostic) = !findings.isEmpty := by
  cases findings with
  | nil => rfl
  | cons finding rest => rfl

namespace Session

/-- Every diagnostic of a read that goes through is an error, and their spans are those of the
unreadable forms of the tree, each as often. So a session that held no error before holds one
afterwards exactly if a walk of the tree meets an unreadable form. -/
theorem read_reports_errors (session : Session) (arena : Arena) (source : List UInt8)
    (tree : Tree) (succeeds : (session.read arena source).result = .ok tree) :
    let after := (session.read arena source).session
    (∃ findings : List Finding,
      after.diagnostics = session.diagnostics ++ findings.map Finding.diagnostic ∧
        (∀ finding ∈ findings, finding.diagnostic.severity = .error ∧
          (finding.cause.isLexical = true ∨ finding.cause = .symbolNotUtf8 ∨
            finding.cause = .integerOutOfRange)) ∧
        (findings.map fun finding => finding.diagnostic.span).Perm
          ((tree.walk.filter Form.isError).map Form.span)) ∧
      (session.hasErrors = false →
        (after.hasErrors = true ↔ ∃ form ∈ tree.walk, form.isError = true)) := by
  intro after
  obtain ⟨findings, reported, spans, causes⟩ := exists_findings_of_read succeeds
  refine ⟨⟨findings, reported, fun finding member => ⟨rfl, causes finding member⟩, spans⟩,
    fun quiet => ?_⟩
  have held : after.hasErrors = !findings.isEmpty := by
    change Diagnostic.anyError (session.read arena source).session.diagnostics = _
    rw [reported, Diagnostic.anyError_append, Finding.anyError_diagnostic,
      show Diagnostic.anyError session.diagnostics = false from quiet, Bool.false_or]
  have count := spans.length_eq
  rw [List.length_map, List.length_map, ← List.countP_eq_length_filter] at count
  rw [held, Bool.not_eq_true', List.isEmpty_eq_false_iff, ← List.length_pos_iff, count,
    List.countP_pos_iff]

/-- A lone point and a name that is not text: each is reported, the first by the scanner and the
second when its form is built. -/
theorem read_reports_errors_point_name :
    let session : Session := .create .default
    let arena : Arena := ⟨Arena.blockAddress, 256, 0, by decide, by decide, by decide⟩
    let source : List UInt8 := [Byte.point, Byte.space, 0xFF]
    let after := (session.read arena source).session
    (session.read arena source).result = .ok ⟨[.error ⟨0, 1⟩, .error ⟨2, 3⟩]⟩ ∧
      session.hasErrors = false ∧ after.hasErrors = true ∧
      (after.diagnostics.map Diagnostic.span).Perm [⟨0, 1⟩, ⟨2, 3⟩] := by
  intro session arena source after
  have point : Cause.Fits .lonePoint [Byte.point] [Byte.space, 0xFF] := by
    refine ⟨rfl, fun byte first => ?_⟩
    cases first
    rfl
  have name : TokenKind.Fits .atom [0xFF] [] := ⟨by decide, fun byte first => by cases first⟩
  have cut : Scanner.cut 0 source = [⟨⟨.error, ⟨0, 1⟩⟩, [⟨.lonePoint, ⟨0, 1⟩⟩]⟩,
      ⟨⟨.atom, ⟨2, 3⟩⟩, []⟩, ⟨.endOfInput 3, []⟩] := by
    have first := Scanner.cut_malformed .lonePoint 0 point
    have second := Scanner.cut_token .atom 2 name
    rw [List.append_nil, Scanner.cut_nil] at second
    have blank : Scanner.cut 1 [Byte.space, 0xFF] = Scanner.cut 2 [0xFF] :=
      Scanner.cut_blank rfl 1 [0xFF]
    exact first.trans (congrArg (List.cons _) (blank.trans second))
  have derives : Phrase.Derives session.settings.depthLimit source
      [.leaf .error ⟨0, 1⟩, .leaf .atom ⟨2, 3⟩] := by
    refine ⟨by simp, ?_, Nat.zero_le _, Nat.zero_le _, trivial⟩
    rw [Scanner.tokens_eq_cut, cut]
    rfl
  have untext : Text.ofBytes? [0xFF] = none := by decide
  have result : (session.read arena source).result = .ok ⟨[.error ⟨0, 1⟩, .error ⟨2, 3⟩]⟩ := by
    rw [(gives_of_derives (by decide) derives (.inl (by decide))).result]
    have lexeme : Span.slice ⟨2, 3⟩ source = [0xFF] := rfl
    simp only [Phrase.convertAll, Phrase.convert, LeafKind.convert, lexeme, untext]
  have walk : (Tree.walk ⟨[.error ⟨0, 1⟩, .error ⟨2, 3⟩]⟩) = [.error ⟨0, 1⟩, .error ⟨2, 3⟩] := by
    simp [Tree.walk, Form.walk, Form.children]
  obtain ⟨⟨findings, reported, -, spans⟩, errors⟩ :=
    read_reports_errors session arena source _ result
  rw [walk] at spans errors
  refine ⟨result, rfl, (errors rfl).mpr ⟨_, List.mem_cons_self, rfl⟩, ?_⟩
  change ((session.read arena source).session.diagnostics.map Diagnostic.span).Perm _
  rw [reported, List.map_append, List.map_map]
  exact spans

end Session

end LispReader

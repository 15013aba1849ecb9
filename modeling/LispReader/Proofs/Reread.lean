import LispReader.Proofs.Acceptance
import LispReader.Proofs.ChunkInvariance
import LispReader.Proofs.RoundTrip

/-!
# Writing what was read

Forms that were read without a finding are legible: no form is unreadable, every name is proper, and
the nesting is that of the source. Written and read again they come back as their echo, so they come
back whole exactly if no float was read as infinity, every string is text, and the text they are
written as is not too long to be read.
-/

namespace LispReader

/-! ## Forms that were read -/

namespace Form

/-- A legible form stays so as more names become known. -/
theorem Legible.of_extends {table later : SymbolTable} {form : Form}
    (legible : form.Legible table) (more : later.Extends table) : form.Legible later := by
  cases form with
  | symbol span handle =>
    obtain ⟨name, known, proper⟩ := legible
    exact ⟨name, more handle name known, proper⟩
  | list | quote | integer | float | string => trivial
  | error => exact legible

mutual

/-- What holds of every part of a form may be weakened. -/
theorem Every.imp {holds holds' : Form → Prop} {form : Form} (every : form.Every holds)
    (weaker : ∀ part, holds part → holds' part) : form.Every holds' := by
  match form with
  | .list _ items => exact ⟨weaker _ every.1, everyOf_imp every.2 weaker⟩
  | .quote _ quoted => exact ⟨weaker _ every.1, every.2.imp weaker⟩
  | .symbol _ _ | .integer _ _ | .float _ _ | .string _ _ | .error _ => exact weaker _ every

/-- What holds of every part of forms may be weakened. -/
theorem everyOf_imp {holds holds' : Form → Prop} {forms : List Form} (every : EveryOf holds forms)
    (weaker : ∀ part, holds part → holds' part) : EveryOf holds' forms := by
  match forms with
  | [] => trivial
  | form :: rest => exact ⟨every.1.imp weaker, everyOf_imp every.2 weaker⟩

end

end Form

/-- A leaf that is not an error token and is read without a finding is legible. -/
theorem LeafKind.legible_convert {kind : LeafKind} {lexeme : List UInt8} (span : Span)
    {symbols : SymbolTable} (admits : kind.Admits lexeme) (proper : kind ≠ .error)
    (quiet : (kind.convert span lexeme symbols).findings = []) :
    (kind.convert span lexeme symbols).value.Every
      (Form.Legible (kind.convert span lexeme symbols).symbols) := by
  cases kind with
  | atom =>
    simp only [convert] at quiet ⊢
    cases found : Text.ofBytes? lexeme with
    | none =>
      rw [found] at quiet
      cases quiet
    | some name =>
      have named : Byte.isName (Text.bytes name) = true := by
        rw [Text.ofBytes?_eq_some.mp found]
        exact admits
      exact ⟨name, symbols.resolve?_intern name, named⟩
  | integer =>
    simp only [convert] at quiet ⊢
    split at quiet
    · trivial
    · cases quiet
  | float =>
    simp only [convert] at quiet ⊢
    split at quiet
    · trivial
    · cases quiet
  | string => trivial
  | error => exact absurd rfl proper

namespace Phrase

mutual

/-- What a phrase without error tokens is read as is legible if nothing was found. -/
theorem legible_convert {source : List UInt8} {symbols : SymbolTable} (phrase : Phrase)
    (scanned : Token.Scanned source phrase.tokens)
    (proper : ∀ token ∈ phrase.tokens, token.kind ≠ .error)
    (quiet : (phrase.convert source symbols).findings = []) :
    (phrase.convert source symbols).value.Every
      (Form.Legible (phrase.convert source symbols).symbols) := by
  match phrase with
  | .leaf kind span =>
    have member : (⟨kind.tokenKind, span⟩ : Token) ∈ (leaf kind span).tokens :=
      List.mem_singleton_self _
    refine LeafKind.legible_convert span (scanned.admits _ member kind rfl) ?_ quiet
    rintro rfl
    exact proper _ member rfl
  | .list opening items closing =>
    have inside : ∀ token ∈ tokensAll items, token.kind ≠ .error := fun token member =>
      proper token (List.mem_cons_of_mem _ (List.mem_append_left _ member))
    exact ⟨trivial, legible_convertAll items scanned.items inside quiet⟩
  | .quote mark quoted =>
    have inside : ∀ token ∈ quoted.tokens, token.kind ≠ .error := fun token member =>
      proper token (List.mem_cons_of_mem _ member)
    exact ⟨trivial, legible_convert quoted scanned.quoted inside quiet⟩

/-- What phrases without error tokens are read as is legible if nothing was found. -/
theorem legible_convertAll {source : List UInt8} {symbols : SymbolTable} (phrases : List Phrase)
    (scanned : Token.Scanned source (tokensAll phrases))
    (proper : ∀ token ∈ tokensAll phrases, token.kind ≠ .error)
    (quiet : (convertAll source symbols phrases).findings = []) :
    Form.EveryOf (Form.Legible (convertAll source symbols phrases).symbols)
      (convertAll source symbols phrases).value := by
  match phrases with
  | [] => trivial
  | phrase :: rest =>
    obtain ⟨front, back⟩ := scanned.of_append
    obtain ⟨quiet, quiet'⟩ := List.append_eq_nil_iff.mp quiet
    have first := legible_convert phrase front
      (fun token member => proper token (List.mem_append_left _ member)) quiet
    have others := legible_convertAll rest back
      (fun token member => proper token (List.mem_append_right _ member)) quiet'
    have more := extends_convertAll source (phrase.convert source symbols).symbols rest
    exact ⟨first.imp fun part legible => legible.of_extends more, others⟩

end

mutual

/-- What a phrase is read as is nested like the phrase. -/
theorem within_convert {source : List UInt8} {symbols : SymbolTable} {limit depth : Nat}
    (phrase : Phrase) (within : phrase.Within limit depth) :
    (phrase.convert source symbols).value.Within limit depth := by
  match phrase with
  | .leaf kind span =>
    have shallow : depth ≤ limit := within
    cases kind with
    | atom | integer | float =>
      simp only [convert, LeafKind.convert]
      split <;> exact shallow
    | string | error => exact shallow
  | .list opening items closing => exact ⟨within.1, withinAll_convertAll items within.2⟩
  | .quote mark quoted => exact ⟨within.1, within_convert quoted within.2⟩

/-- What phrases are read as is nested like the phrases. -/
theorem withinAll_convertAll {source : List UInt8} {symbols : SymbolTable} {limit depth : Nat}
    (phrases : List Phrase) (within : WithinAll limit depth phrases) :
    Form.WithinAll limit depth (convertAll source symbols phrases).value := by
  match phrases with
  | [] => trivial
  | phrase :: rest => exact ⟨within_convert phrase within.1, withinAll_convertAll rest within.2⟩

end

end Phrase

namespace Scanner

/-- A source in which the scanner finds nothing wrong has no error tokens. -/
theorem kind_ne_error_of_findings {source : List UInt8} (quiet : findings source = [])
    {token : Token} (member : token ∈ tokens source) : token.kind ≠ .error := by
  have spans := span_flatMap_findings (cut 0 source) fun _ member => member
  rw [← findings, quiet, ← tokens_eq_cut] at spans
  have none_left := List.map_eq_nil_iff.mp spans.symm
  intro error
  exact List.filter_eq_nil_iff.mp none_left token member (decide_eq_true error)

end Scanner

/-! ## Reading again -/

namespace Session

/-- What was read without a finding is legible and no deeper than the settings allow. -/
theorem legible_of_read {session : Session} {arena : Arena} {source : List UInt8} {tree : Tree}
    (accepted : (session.read arena source).result = .ok tree)
    (quiet : (session.read arena source).session.diagnostics = session.diagnostics) :
    tree.forms ≠ [] ∧
      Form.EveryOf (Form.Legible (session.read arena source).session.symbols) tree.forms ∧
      Form.WithinAll session.settings.depthLimit 0 tree.forms ∧
      (session.read arena source).session.settings = session.settings := by
  obtain ⟨phrases, derives, rfl, gives⟩ := gives_of_read accepted
  obtain ⟨findings, reported, lexical, others⟩ := gives.diagnostics
  have nothing : findings = [] := by
    rw [quiet] at reported
    exact List.map_eq_nil_iff.mp (List.append_right_eq_self.mp reported.symm)
  rw [nothing] at lexical others
  have proper : ∀ token ∈ Phrase.tokensAll phrases, token.kind ≠ .error := by
    intro token member
    apply Scanner.kind_ne_error_of_findings lexical.symm
    rw [← derives.tokens]
    exact List.mem_append_left _ member
  have legible := Phrase.legible_convertAll phrases derives.scanned proper others.symm
  rw [← gives.symbols] at legible
  exact ⟨Phrase.convertAll_ne_nil source session.symbols derives.nonempty, legible,
    Phrase.withinAll_convertAll phrases derives.within, gives.settings⟩

/-- A tree that was read without a finding, written and read again, comes back as its echo if its
text is not too long, and nothing is reported. Only the arena can stop that. -/
theorem reread_eq_echo {session : Session} {arena : Arena} {source : List UInt8} {tree : Tree}
    (arena' : Arena) (accepted : (session.read arena source).result = .ok tree)
    (quiet : (session.read arena source).session.diagnostics = session.diagnostics) :
    let after := (session.read arena source).session
    let text := tree.render after.symbols
    let again := after.read arena' text
    text.length < Scanner.sourceLimit →
      64 * (text.length + 1) ≤ arena'.remaining.toNat ∨
        (∀ problem, again.result ≠ .error (.arena problem)) →
      ∃ tree', again.result = .ok tree' ∧
        tree'.withoutSpans = ⟨(Form.echoes after.symbols tree.forms).value⟩ ∧
        again.session.diagnostics = after.diagnostics := by
  intro after text again short room
  obtain ⟨nonempty, legible, within, settings⟩ := legible_of_read accepted quiet
  obtain ⟨tree', succeeds, same, -, -, unreported⟩ :=
    read_render_eq_echo arena' nonempty legible (settings ▸ within) short room
  exact ⟨tree', succeeds, same, unreported⟩

/-- A string literal by itself is read as a string with its contents, whatever bytes they are, and
the session is as before. -/
theorem read_literal (session : Session) (arena : Arena) (contents : List UInt8)
    (short : (Escape.literal contents).length < Scanner.sourceLimit)
    (room : 64 * ((Escape.literal contents).length + 1) ≤ arena.remaining.toNat) :
    (session.read arena (Escape.literal contents)).result =
        .ok ⟨[.string ⟨0, (Escape.literal contents).length⟩ contents]⟩ ∧
      (session.read arena (Escape.literal contents)).session = session := by
  have cut := Scanner.cut_literal contents 0 []
  rw [List.append_nil, Nat.zero_add, Scanner.cut_nil] at cut
  have derives : Phrase.Derives session.settings.depthLimit (Escape.literal contents)
      [.leaf .string ⟨0, (Escape.literal contents).length⟩] := by
    refine ⟨by simp, ?_, Nat.zero_le _, trivial⟩
    rw [Scanner.tokens_eq_cut, cut]
    rfl
  have lexical : Scanner.findings (Escape.literal contents) = [] := by
    rw [Scanner.findings, cut]
    rfl
  have lexeme : Span.slice ⟨0, (Escape.literal contents).length⟩ (Escape.literal contents) =
      Escape.literal contents := List.take_length
  have gives := gives_of_derives short derives (.inl room)
  constructor
  · rw [gives.result]
    simp only [Phrase.convertAll, Phrase.convert, LeafKind.convert, lexeme,
      Escape.literalContents_literal]
  · exact eq_of_fields gives.settings gives.symbols (gives.diagnostics_eq lexical rfl)

/-- A string by itself is written as a line with the literal of its repaired contents. -/
theorem render_string (symbols : SymbolTable) (span : Span) (contents : List UInt8) :
    Tree.render symbols ⟨[.string span contents]⟩ =
      Escape.literal (Utf8.repair contents) ++ [Byte.newline] := by
  simp only [Tree.render, List.flatMap_cons, List.flatMap_nil, Form.render, List.append_nil]

/-- A string with a byte that is no text does not come back: nothing is reported, and the string is
read again with a replacement character in place of the byte. -/
theorem reread_ne_of_stray_byte :
    let session : Session := .create .default
    let arena : Arena := ⟨Arena.blockAddress, 1024, 0, by decide, by decide, by decide⟩
    let source : List UInt8 := [Byte.quotationMark, 0xFF, Byte.quotationMark]
    let after := (session.read arena source).session
    ∃ tree tree', (session.read arena source).result = .ok tree ∧ after.diagnostics = [] ∧
      (after.read arena (tree.render after.symbols)).result = .ok tree' ∧
      (after.read arena (tree.render after.symbols)).session.diagnostics = [] ∧
      tree'.withoutSpans ≠ tree.withoutSpans := by
  intro session arena source after
  let tree : Tree := ⟨[.string ⟨0, 3⟩ [0xFF]]⟩
  obtain ⟨accepted, kept⟩ := read_literal session arena [0xFF] (by decide) (by decide)
  change (session.read arena source).result = .ok tree at accepted
  change after = session at kept
  have repaired : Utf8.repair [0xFF] = Utf8.replacement := by
    rw [Utf8.repair, Utf8.leading, List.drop_nil, Utf8.repair]
    rfl
  have text : tree.render after.symbols =
      [Byte.quotationMark, 0xEF, 0xBF, 0xBD, Byte.quotationMark, Byte.newline] := by
    rw [render_string, repaired]
    decide
  have quiet : after.diagnostics = [] := congrArg diagnostics kept
  have short : (tree.render after.symbols).length < Scanner.sourceLimit := by
    rw [text]
    decide
  have room : 64 * ((tree.render after.symbols).length + 1) ≤ arena.remaining.toNat := by
    rw [text]
    decide
  obtain ⟨tree', succeeds, same, unreported⟩ :=
    reread_eq_echo arena accepted quiet short (.inl room)
  refine ⟨tree, tree', accepted, quiet, succeeds, unreported.trans quiet, ?_⟩
  rw [same]
  intro whole
  have contents : Form.string .origin (Utf8.repair [0xFF]) = Form.string .origin [0xFF] :=
    (List.cons.inj (congrArg Tree.forms whole)).1
  rw [repaired, Form.string.injEq] at contents
  exact absurd contents.2 (by decide)

/-- A tree that was read without a finding, written and read again, comes back whole exactly if its
text is not too long, none of its floats is infinite, and all its strings are text. Even where it
does not, a text that is not too long is read again, and nothing is reported. -/
theorem reread_eq_iff (session : Session) (arena arena' : Arena) (source : List UInt8)
    (tree : Tree) (accepted : (session.read arena source).result = .ok tree)
    (quiet : (session.read arena source).session.diagnostics = session.diagnostics) :
    let after := (session.read arena source).session
    let text := tree.render after.symbols
    let again := after.read arena' text
    64 * (text.length + 1) ≤ arena'.remaining.toNat ∨
        (∀ problem, again.result ≠ .error (.arena problem)) →
      ((∃ tree', again.result = .ok tree' ∧ tree'.withoutSpans = tree.withoutSpans) ↔
        text.length < Scanner.sourceLimit ∧ ∀ form ∈ tree.walk, form.Exact) ∧
      (text.length < Scanner.sourceLimit →
        ∃ tree', again.result = .ok tree' ∧ again.session.diagnostics = after.diagnostics) := by
  intro after text again room
  have comes_back (short : text.length < Scanner.sourceLimit) :=
    reread_eq_echo arena' accepted quiet short room
  refine ⟨⟨?_, ?_⟩, ?_⟩
  · rintro ⟨tree', succeeds, same⟩
    have short := (derives_of_read succeeds).1
    obtain ⟨echoed, succeeds', same', -⟩ := comes_back short
    have agree := succeeds.symm.trans succeeds'
    rw [Except.ok.injEq] at agree
    rw [← agree, same] at same'
    have whole := congrArg Tree.forms same'
    exact ⟨short, (Form.forall_mem_walk tree.forms).mpr
      ((Form.echoes_eq_iff after.symbols tree.forms).mp whole.symm)⟩
  · rintro ⟨short, exact⟩
    obtain ⟨echoed, succeeds, same, -⟩ := comes_back short
    refine ⟨echoed, succeeds, ?_⟩
    rw [same, (Form.echoes_eq_iff after.symbols tree.forms).mpr
      ((Form.forall_mem_walk tree.forms).mp exact)]
    rfl
  · intro short
    obtain ⟨echoed, succeeds, -, unreported⟩ := comes_back short
    exact ⟨echoed, succeeds, unreported⟩

/-- A string that is text comes back whole. -/
theorem reread_eq_iff_ascii :
    let session : Session := .create .default
    let arena : Arena := ⟨Arena.blockAddress, 1024, 0, by decide, by decide, by decide⟩
    let source : List UInt8 := [Byte.quotationMark, Byte.letterN, Byte.quotationMark]
    let after := (session.read arena source).session
    ∃ tree, (session.read arena source).result = .ok tree ∧ after.diagnostics = [] ∧
      ∃ tree', (after.read arena (tree.render after.symbols)).result = .ok tree' ∧
        tree'.withoutSpans = tree.withoutSpans := by
  intro session arena source after
  let tree : Tree := ⟨[.string ⟨0, 3⟩ [Byte.letterN]]⟩
  obtain ⟨accepted, kept⟩ := read_literal session arena [Byte.letterN] (by decide) (by decide)
  change (session.read arena source).result = .ok tree at accepted
  change after = session at kept
  have valid : ∃ text, Text.ofBytes? [Byte.letterN] = some text := ⟨"n", by decide⟩
  have text : tree.render after.symbols =
      [Byte.quotationMark, Byte.letterN, Byte.quotationMark, Byte.newline] := by
    rw [render_string, Text.repair_eq_self_iff.mpr valid]
    decide
  have quiet : after.diagnostics = [] := congrArg diagnostics kept
  have short : (tree.render after.symbols).length < Scanner.sourceLimit := by
    rw [text]
    decide
  have room : 64 * ((tree.render after.symbols).length + 1) ≤ arena.remaining.toNat := by
    rw [text]
    decide
  have exact : ∀ form ∈ tree.walk, form.Exact :=
    (Form.forall_mem_walk tree.forms).mpr ⟨valid, trivial⟩
  exact ⟨tree, accepted, quiet, (reread_eq_iff session arena arena source tree accepted quiet
    (.inl room)).1.mpr ⟨short, exact⟩⟩

end Session

end LispReader

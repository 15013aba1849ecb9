import LispReader.Proofs.RenderedForms

/-!
# Reading what was written

A tree that is written and read again in the same session comes back as its echo, without a
finding. So nothing is lost of a tree with finite floats and strings that are text. Of a tree that
was read without a finding, all is kept exactly if it is such a tree and its text is not too long.
-/

namespace LispReader

namespace Session

/-- A tree that is written and read again comes back as its echo, and nothing is reported. Only the
arena can stop that. -/
theorem read_render_eq_echo {session : Session} {tree : Tree} (arena : Arena)
    (nonempty : tree.forms ≠ [])
    (legible : Form.EveryOf (Form.Legible session.symbols) tree.forms)
    (within : Form.WithinAll session.settings.depthLimit 0 tree.forms)
    (short : (tree.render session.symbols).length < Scanner.sourceLimit)
    (room : 64 * ((tree.render session.symbols).length + 1) ≤ arena.remaining.toNat ∨
      ∀ problem, (session.read arena (tree.render session.symbols)).result ≠
        .error (.arena problem)) :
    let reading := session.read arena (tree.render session.symbols)
    ∃ again, reading.result = .ok again ∧
      again.withoutSpans = ⟨(Form.echoes session.symbols tree.forms).value⟩ ∧
      reading.session.settings = session.settings ∧
      reading.session.symbols = (Form.echoes session.symbols tree.forms).symbols ∧
      reading.session.diagnostics = session.diagnostics := by
  intro reading
  obtain ⟨phrases, derives, lexical, read⟩ :=
    Phrase.exists_derives_render nonempty legible within
  have gives := gives_of_derives short derives room
  have quiet := congrArg Converted.findings read
  rw [Form.findings_echoes] at quiet
  refine ⟨_, gives.result, ?_, gives.settings, ?_, gives.diagnostics_eq lexical quiet⟩
  · rw [← read]
    rfl
  · rw [← read]
    exact gives.symbols

/-- Reading undoes writing on every tree of legible forms in which nothing is lost: the tree comes
back with the same symbols, floats and strings, and the session is as before. -/
theorem read_render (session : Session) (arena : Arena) (tree : Tree)
    (nonempty : tree.forms ≠ [])
    (proper : ∀ form ∈ tree.walk, form.Legible session.symbols ∧ form.Exact)
    (shallow : Form.WithinAll (min session.settings.maxDepth.toNat 1024) 0 tree.forms)
    (short : (tree.render session.symbols).length < Scanner.sourceLimit)
    (room : 64 * ((tree.render session.symbols).length + 1) ≤ arena.remaining.toNat ∨
      ∀ problem, (session.read arena (tree.render session.symbols)).result ≠
        .error (.arena problem)) :
    let reading := session.read arena (tree.render session.symbols)
    ∃ again, reading.result = .ok again ∧ again.withoutSpans = tree.withoutSpans ∧
      reading.session = session := by
  intro reading
  have legible : Form.EveryOf (Form.Legible session.symbols) tree.forms :=
    (Form.forall_mem_walk tree.forms).mp fun form member => (proper form member).1
  have exact : Form.EveryOf Form.Exact tree.forms :=
    (Form.forall_mem_walk tree.forms).mp fun form member => (proper form member).2
  obtain ⟨again, succeeds, same, settings, symbols, diagnostics⟩ :=
    read_render_eq_echo arena nonempty legible shallow short room
  rw [(Form.echoes_eq_iff session.symbols tree.forms).mpr exact] at same
  rw [Form.symbols_echoes session.symbols exact] at symbols
  exact ⟨again, succeeds, same, eq_of_fields settings symbols diagnostics⟩

/-- A quoted list with a name, a float and a string that needs an escape comes back whole. -/
theorem read_render_quoted_list :
    let symbols : SymbolTable := ⟨["x"], by decide⟩
    let session : Session := ⟨.default, symbols, []⟩
    let arena : Arena := ⟨Arena.blockAddress, 2048, 0, by decide, by decide, by decide⟩
    let tree : Tree := ⟨[.quote .origin (.list .origin
      [.symbol .origin ⟨0⟩, .float .origin .zero, .string .origin [Byte.quotationMark]])]⟩
    tree.render symbols = Text.bytes "'(x 0.0 \"\\\"\")\n" ∧
      (∀ form ∈ tree.walk, form.Legible symbols ∧ form.Exact) ∧
      ∃ again, (session.read arena (tree.render symbols)).result = .ok again ∧
        again.withoutSpans = tree.withoutSpans := by
  intro symbols session arena tree
  have text : tree.render symbols = Text.bytes "'(x 0.0 \"\\\"\")\n" := by
    have zero : FloatStyle.source.write .zero = Text.bytes "0.0" := by
      rw [FloatStyle.write, FloatStyle.writeMagnitude_source (by decide)]
      simp [Decimal.shortest, Binary64.zero, FloatStyle.writePositional, Numeral.ofNat]
      decide
    have string : Utf8.repair [Byte.quotationMark] = [Byte.quotationMark] :=
      Text.repair_eq_self_iff.mpr ⟨"\"", by decide⟩
    simp only [Tree.render, tree, List.flatMap_cons, List.flatMap_nil, Form.render,
      Form.renderItems, Form.renderRest, zero, string]
    decide
  have proper : ∀ form ∈ tree.walk, form.Legible symbols ∧ form.Exact := by
    refine (Form.forall_mem_walk tree.forms).mpr ?_
    have finite : Binary64.zero.isFinite = true := by decide
    exact ⟨⟨⟨trivial, trivial⟩, ⟨trivial, trivial⟩, ⟨⟨"x", rfl, by decide⟩, trivial⟩,
      ⟨trivial, finite⟩, ⟨trivial, "\"", by decide⟩, trivial⟩, trivial⟩
  have shallow : Form.WithinAll (min session.settings.maxDepth.toNat 1024) 0 tree.forms := by
    simp only [tree, Form.WithinAll, Form.Within]
    decide
  obtain ⟨again, succeeds, same, -⟩ := read_render session arena tree (by simp [tree]) proper
    shallow (by rw [text]; decide)
    (by rw [text]; exact .inl (by decide))
  exact ⟨text, proper, again, succeeds, same⟩

end Session

end LispReader

import LispReader.Proofs.Reread
import LispReader.Proofs.UnreadableForms

/-!
# Writing again what was written

What is lost when forms are written is lost at once. The echo of a form is written as the form
itself: a word for infinity is written as that word, and repaired text needs no repair. So the text
of a tree without unreadable forms is read again without a finding, and what it is read as is
written as the same text.
-/

namespace LispReader

namespace Form

/-! ## Rows of texts -/

/-- The items after the first are written each with a space in front. -/
theorem renderRest_eq_flatMap (table : SymbolTable) (forms : List Form) :
    renderRest table forms = (forms.map (render table)).flatMap (Byte.space :: ·) := by
  induction forms with
  | nil => rfl
  | cons form rest ih => rw [renderRest, ih, List.map_cons, List.flatMap_cons, List.cons_append]

/-- The items of a list are written with a space between neighbours. -/
theorem renderItems_eq_drop (table : SymbolTable) (forms : List Form) :
    renderItems table forms = ((forms.map (render table)).flatMap (Byte.space :: ·)).drop 1 := by
  cases forms with
  | nil => rfl
  | cons form rest =>
    rw [renderItems, renderRest_eq_flatMap, List.map_cons, List.flatMap_cons, List.cons_append,
      List.drop_one, List.tail_cons]

/-- The text of a list is that of its items. -/
theorem render_list_congr {table table' : SymbolTable} {span span' : Span}
    {items items' : List Form} (same : items.map (render table) = items'.map (render table')) :
    (list span items).render table = (list span' items').render table' := by
  rw [render, render, renderItems_eq_drop, renderItems_eq_drop, same]

mutual

/-- Where a form was read from does not show in its text. -/
theorem render_withoutSpan (table : SymbolTable) (form : Form) :
    form.withoutSpan.render table = form.render table := by
  match form with
  | .list _ items => exact render_list_congr (map_render_withoutSpans table items)
  | .quote _ quoted => rw [withoutSpan, render, render, render_withoutSpan table quoted]
  | .symbol _ _ | .integer _ _ | .float _ _ | .string _ _ | .error _ =>
    simp only [withoutSpan, render]

/-- Where forms were read from does not show in their texts. -/
theorem map_render_withoutSpans (table : SymbolTable) (forms : List Form) :
    (withoutSpans forms).map (render table) = forms.map (render table) := by
  match forms with
  | [] => rfl
  | form :: rest =>
    rw [withoutSpans, List.map_cons, List.map_cons, render_withoutSpan table form,
      map_render_withoutSpans table rest]

end

/-! ## The text of an echo -/

mutual

/-- The echo of a form forgets no name. -/
theorem extends_echo (symbols : SymbolTable) (form : Form) :
    (form.echo symbols).symbols.Extends symbols := by
  match form with
  | .list _ items => exact extends_echoes symbols items
  | .quote _ quoted => exact extends_echo symbols quoted
  | .float _ value =>
    simp only [echo]
    split
    · exact .refl symbols
    · exact SymbolTable.extends_intern symbols _
  | .symbol _ _ | .integer _ _ | .string _ _ | .error _ => exact .refl symbols

/-- The echoes of forms forget no name. -/
theorem extends_echoes (symbols : SymbolTable) (forms : List Form) :
    (echoes symbols forms).symbols.Extends symbols := by
  match forms with
  | [] => exact .refl symbols
  | form :: rest =>
    exact (extends_echoes (form.echo symbols).symbols rest).trans (extends_echo symbols form)

end

/-- A symbol is written as its name wherever the name is known. -/
theorem renderSymbol_of_resolve? {table : SymbolTable} {symbol : Symbol} {name : String}
    (known : table.resolve? symbol = some name) : renderSymbol table symbol = Text.bytes name := by
  rw [renderSymbol, known]

mutual

/-- The echo of a legible form is written as the form, wherever the names of both are known. -/
theorem render_echo {table symbols later : SymbolTable} {form : Form}
    (legible : form.Every (Legible table)) (more : symbols.Extends table)
    (grown : later.Extends (form.echo symbols).symbols) :
    (form.echo symbols).value.render later = form.render table := by
  match form with
  | .list _ items => exact render_list_congr (map_render_echoes legible.2 more grown)
  | .quote _ quoted =>
    have inside := render_echo legible.2 more grown
    simp only [echo, render, inside]
  | .symbol _ handle =>
    obtain ⟨name, known, -⟩ := legible
    have known' : later.resolve? handle = some name := grown _ _ (more _ _ known)
    simp only [echo, render, renderSymbol_of_resolve? known, renderSymbol_of_resolve? known']
  | .integer _ value => simp only [echo, render]
  | .float _ value =>
    by_cases finite : value.isFinite = true
    · simp only [echo, finite, if_true, render]
    · simp only [echo, finite] at grown ⊢
      have word := grown _ _ (symbols.resolve?_intern (infinityWord value.negative))
      rw [render, FloatStyle.write_of_infinite finite]
      exact renderSymbol_of_resolve? word
  | .string _ contents => simp only [echo, render, Utf8.repair_repair]
  | .error _ => exact legible.elim

/-- The echoes of legible forms are written as the forms, wherever the names of both are known. -/
theorem map_render_echoes {table symbols later : SymbolTable} {forms : List Form}
    (legible : EveryOf (Legible table) forms) (more : symbols.Extends table)
    (grown : later.Extends (echoes symbols forms).symbols) :
    (echoes symbols forms).value.map (render later) = forms.map (render table) := by
  match forms with
  | [] => rfl
  | form :: rest =>
    have known := grown.trans (extends_echoes (form.echo symbols).symbols rest)
    have first := render_echo legible.1 more known
    have others := map_render_echoes legible.2 ((extends_echo symbols form).trans more) grown
    rw [echoes, List.map_cons, List.map_cons, first, others]

end

end Form

namespace Tree

/-- A tree is written as the lines of its forms. -/
theorem render_eq_flatMap (table : SymbolTable) (tree : Tree) :
    tree.render table = (tree.forms.map (Form.render table)).flatMap (· ++ [Byte.newline]) := by
  rw [render, List.flatMap_map]

/-- A tree that comes back as the echo of another is written as that one. -/
theorem render_of_echoes {table later : SymbolTable} {tree tree' : Tree}
    (legible : Form.EveryOf (Form.Legible table) tree.forms)
    (same : tree'.withoutSpans = ⟨(Form.echoes table tree.forms).value⟩)
    (grown : later.Extends (Form.echoes table tree.forms).symbols) :
    tree'.render later = tree.render table := by
  have forms : Form.withoutSpans tree'.forms = (Form.echoes table tree.forms).value :=
    congrArg Tree.forms same
  rw [render_eq_flatMap, render_eq_flatMap, ← Form.map_render_withoutSpans, forms,
    Form.map_render_echoes legible (.refl table) grown]

end Tree

namespace Session

/-- A read whose tree holds no unreadable form reports nothing. -/
theorem diagnostics_of_readable {session : Session} {arena : Arena} {source : List UInt8}
    {tree : Tree} (accepted : (session.read arena source).result = .ok tree)
    (readable : ∀ form ∈ tree.walk, form.isError = false) :
    (session.read arena source).session.diagnostics = session.diagnostics := by
  obtain ⟨findings, reported, spans, -⟩ := exists_findings_of_read accepted
  have none_met : tree.walk.filter Form.isError = [] := by
    rw [List.filter_eq_nil_iff]
    intro form member
    rw [readable form member]
    exact Bool.false_ne_true
  rw [none_met, List.map_nil] at spans
  rw [reported, List.map_eq_nil_iff.mp spans.eq_nil, List.map_nil, List.append_nil]

/-- The text of a tree that was read and holds no unreadable form is read again in the same session,
if it is not too long, and nothing is reported; and what it is read as is written as the same text.
Only the arena can stop that. -/
theorem rerender_eq (session : Session) (arena arena' : Arena) (source : List UInt8) (tree : Tree)
    (accepted : (session.read arena source).result = .ok tree)
    (readable : ∀ form ∈ tree.walk, form.isError = false) :
    let after := (session.read arena source).session
    let text := tree.render after.symbols
    let again := after.read arena' text
    text.length < Scanner.sourceLimit →
      64 * (text.length + 1) ≤ arena'.remaining.toNat ∨
        (∀ problem, again.result ≠ .error (.arena problem)) →
      ∃ tree', again.result = .ok tree' ∧ again.session.diagnostics = after.diagnostics ∧
        tree'.render again.session.symbols = text := by
  intro after text again short room
  have quiet := diagnostics_of_readable accepted readable
  obtain ⟨nonempty, legible, within, settings⟩ := legible_of_read accepted quiet
  obtain ⟨tree', succeeds, same, -, symbols, unreported⟩ :=
    read_render_eq_echo arena' nonempty legible (settings ▸ within) short room
  refine ⟨tree', succeeds, unreported, Tree.render_of_echoes legible same ?_⟩
  rw [symbols]
  exact .refl _

/-- A string with a byte that is no text is written with a replacement character, and what that is
read as is written so again. -/
theorem rerender_eq_stray_byte :
    let session : Session := .create .default
    let arena : Arena := ⟨Arena.blockAddress, 1024, 0, by decide, by decide, by decide⟩
    let text := Escape.literal Utf8.replacement ++ [Byte.newline]
    let after := (session.read arena (Escape.literal [0x80])).session
    let again := after.read arena text
    ∃ tree tree', (session.read arena (Escape.literal [0x80])).result = .ok tree ∧
      (∀ form ∈ tree.walk, form.isError = false) ∧ tree.render after.symbols = text ∧
      again.result = .ok tree' ∧ again.session.diagnostics = [] ∧
      tree'.render again.session.symbols = text := by
  intro session arena text after again
  let tree : Tree := ⟨[.string ⟨0, 3⟩ [0x80]]⟩
  obtain ⟨accepted, kept⟩ := read_literal session arena [0x80] (by decide) (by decide)
  change (session.read arena (Escape.literal [0x80])).result = .ok tree at accepted
  have written : tree.render after.symbols = text := by
    have repaired : Utf8.repair [0x80] = Utf8.replacement := by
      rw [Utf8.repair, Utf8.leading, List.drop_nil, Utf8.repair]
      exact List.append_nil _
    rw [render_string, repaired]
  have readable : ∀ form ∈ tree.walk, form.isError = false :=
    (Form.forall_mem_walk tree.forms).mpr ⟨rfl, trivial⟩
  have comes_back := rerender_eq session arena arena (Escape.literal [0x80]) tree accepted readable
  simp only [show (session.read arena (Escape.literal [0x80])).session = after from rfl,
    written] at comes_back
  obtain ⟨tree', succeeds, unreported, same⟩ := comes_back (by decide) (.inl (by decide))
  exact ⟨tree, tree', accepted, readable, written, succeeds,
    unreported.trans (congrArg diagnostics kept), same⟩

end Session

end LispReader

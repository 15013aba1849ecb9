import LispReader.Proofs.Echo
import LispReader.Proofs.NumberText
import LispReader.Proofs.Reading
import LispReader.Proofs.RenderedLexemes

/-!
# The phrases of written forms

A form is written between what stands before it and what comes after. As long as nothing that comes
after continues its last name or number, its text is cut into the tokens of one phrase, no finding
is made, and the phrase is read as the echo of the form. Rows of forms are put together from single
forms and the blanks between them.
-/

namespace LispReader

/-- A token in which nothing was found wrong. -/
def Token.clean (token : Token) : ReportedToken := ⟨token, []⟩

/-- What was read, spans left out. -/
def Converted.withoutSpan (converted : Converted Form) : Converted Form :=
  { converted with value := converted.value.withoutSpan }

/-- What was read one after the other, spans left out. -/
def Converted.withoutSpans (converted : Converted (List Form)) : Converted (List Form) :=
  { converted with value := Form.withoutSpans converted.value }

/-- An infinite float is written as the word for it. -/
theorem FloatStyle.write_of_infinite {value : Binary64} (infinite : ¬ value.isFinite = true) :
    source.write value = Text.bytes (Form.infinityWord value.negative) := by
  have large : ¬ value.code < Binary64.infinityCode := by
    simpa [Binary64.isFinite] using infinite
  rw [write, writeMagnitude, if_neg large]
  cases value.negative <;> rfl

namespace Phrase

variable {table : SymbolTable} {limit depth : Nat} {before text text' rest : List UInt8}
  {phrase : Phrase} {phrases : List Phrase} {form : Form} {forms : List Form}

/-- Whether `text`, between `before` and `rest`, is cut into the tokens of a phrase that is read as
the echo of a form. -/
structure Spells (table : SymbolTable) (limit depth : Nat) (before text rest : List UInt8)
    (phrase : Phrase) (form : Form) : Prop where
  cut : Scanner.cut before.length (text ++ rest) =
    phrase.tokens.map Token.clean ++ Scanner.cut (before.length + text.length) rest
  within : phrase.Within limit depth
  reads : ∀ symbols : SymbolTable, symbols.Extends table →
    (phrase.convert (before ++ (text ++ rest)) symbols).withoutSpan = form.echo symbols

/-- Whether `text`, between `before` and `rest`, is cut into the tokens of phrases that are read as
the echoes of forms. -/
structure SpellsAll (table : SymbolTable) (limit depth : Nat) (before text rest : List UInt8)
    (phrases : List Phrase) (forms : List Form) : Prop where
  cut : Scanner.cut before.length (text ++ rest) =
    (tokensAll phrases).map Token.clean ++ Scanner.cut (before.length + text.length) rest
  within : WithinAll limit depth phrases
  reads : ∀ symbols : SymbolTable, symbols.Extends table →
    (convertAll (before ++ (text ++ rest)) symbols phrases).withoutSpans =
      Form.echoes symbols forms

/-- No text is no form. -/
theorem SpellsAll.nil : SpellsAll table limit depth before [] rest [] [] :=
  ⟨rfl, trivial, fun _ _ => rfl⟩

/-- A form and then forms are forms. -/
theorem Spells.cons (first : Spells table limit depth before text (text' ++ rest) phrase form)
    (others : SpellsAll table limit depth (before ++ text) text' rest phrases forms) :
    SpellsAll table limit depth before (text ++ text') rest (phrase :: phrases)
      (form :: forms) := by
  refine ⟨?_, ⟨first.within, others.within⟩, ?_⟩
  · have later := others.cut
    rw [List.length_append] at later
    rw [List.append_assoc, first.cut, later, tokensAll, List.map_append, List.append_assoc,
      List.length_append, Nat.add_assoc]
  · intro symbols more
    have read := first.reads symbols more
    have grown := (extends_convert (before ++ (text ++ (text' ++ rest))) symbols phrase).trans more
    have read' := others.reads _ grown
    rw [List.append_assoc before] at read'
    rw [List.append_assoc text, Form.echoes, ← read]
    change _ = (⟨_ :: (Form.echoes (convert _ symbols phrase).symbols forms).value,
      (Form.echoes (convert _ symbols phrase).symbols forms).symbols,
      _ ++ (Form.echoes (convert _ symbols phrase).symbols forms).findings⟩ : Converted _)
    rw [← read']
    rfl

/-- A blank in front of forms changes nothing. -/
theorem SpellsAll.blank {byte : UInt8} (isBlank : Byte.isBlank byte = true)
    (spells : SpellsAll table limit depth (before ++ [byte]) text rest phrases forms) :
    SpellsAll table limit depth before (byte :: text) rest phrases forms := by
  refine ⟨?_, spells.within, ?_⟩
  · have later := spells.cut
    rw [List.length_append, List.length_singleton] at later
    rw [List.cons_append, Scanner.cut_blank isBlank, later, List.length_cons]
    congr 2
    omega
  · intro symbols more
    have read := spells.reads symbols more
    rw [List.append_assoc] at read
    exact read

/-- Forms between parentheses are a list. -/
theorem SpellsAll.list {items : List Form} {span : Span}
    (spells : SpellsAll table limit (depth + 1) (before ++ [Byte.leftParen]) text
      (Byte.rightParen :: rest) phrases items) (shallow : depth ≤ limit) :
    ∃ phrase, Spells table limit depth before (Byte.leftParen :: (text ++ [Byte.rightParen])) rest
      phrase (.list span items) := by
  let opening : Span := ⟨before.length, before.length + 1⟩
  let closing : Span :=
    ⟨before.length + 1 + text.length, before.length + 1 + text.length + 1⟩
  refine ⟨.list opening phrases closing, ?_, ⟨shallow, spells.within⟩, ?_⟩
  · have inner := spells.cut
    rw [List.length_append, List.length_singleton, Scanner.cut_rightParen] at inner
    rw [List.cons_append, Scanner.cut_leftParen, List.append_assoc, List.singleton_append, inner]
    simp only [tokens, List.map_cons, List.map_append, List.map_nil, List.cons_append,
      List.append_assoc, List.nil_append, List.length_cons, List.length_append, List.length_nil]
    congr 4
    omega
  · intro symbols more
    have read := spells.reads symbols more
    have same : before ++ (Byte.leftParen :: (text ++ [Byte.rightParen]) ++ rest) =
        before ++ [Byte.leftParen] ++ (text ++ Byte.rightParen :: rest) := by simp
    rw [same, Form.echo, ← read]
    rfl

/-- A form after an apostrophe is a quote. -/
theorem Spells.quote {span : Span}
    (spells : Spells table limit (depth + 1) (before ++ [Byte.apostrophe]) text rest phrase form)
    (shallow : depth ≤ limit) :
    ∃ phrase, Spells table limit depth before (Byte.apostrophe :: text) rest phrase
      (.quote span form) := by
  let mark : Span := ⟨before.length, before.length + 1⟩
  refine ⟨.quote mark phrase, ?_, ⟨shallow, spells.within⟩, ?_⟩
  · have inner := spells.cut
    rw [List.length_append, List.length_singleton] at inner
    rw [List.cons_append, Scanner.cut_apostrophe, inner, List.length_cons]
    simp only [tokens, List.map_cons, List.cons_append]
    congr 3
    omega
  · intro symbols more
    have read := spells.reads symbols more
    have same : before ++ (Byte.apostrophe :: text ++ rest) =
        before ++ [Byte.apostrophe] ++ (text ++ rest) := by simp
    rw [same, Form.echo, ← read]
    rfl

/-- A lexeme that is cut off as a leaf and is read as the echo of a form spells that form. -/
theorem spells_leaf (kind : LeafKind) (shallow : depth ≤ limit)
    (cut : Scanner.cut before.length (text ++ rest) =
      ⟨⟨kind.tokenKind, ⟨before.length, before.length + text.length⟩⟩, []⟩ ::
        Scanner.cut (before.length + text.length) rest)
    (reads : ∀ (span : Span) (symbols : SymbolTable), symbols.Extends table →
      (kind.convert span text symbols).withoutSpan = form.echo symbols) :
    ∃ phrase, Spells table limit depth before text rest phrase form := by
  refine ⟨.leaf kind ⟨before.length, before.length + text.length⟩, cut, shallow, ?_⟩
  intro symbols more
  rw [convert, ← List.append_assoc, Span.slice_append]
  exact reads _ symbols more

/-! ## Leaves -/

/-- A symbol with a proper name is written as that name. -/
theorem spells_symbol {span : Span} {handle : Symbol} {name : String} (shallow : depth ≤ limit)
    (known : table.resolve? handle = some name) (proper : Byte.isName (Text.bytes name) = true)
    (delimits : Byte.Delimits rest) :
    ∃ phrase, Spells table limit depth before (Text.bytes name) rest phrase
      (.symbol span handle) := by
  apply spells_leaf .atom shallow
    (Scanner.cut_of_admits .atom _ proper ⟨by simp, by simp⟩ delimits)
  intro place symbols more
  simp only [LeafKind.convert, Text.ofBytes?_bytes,
    SymbolTable.intern_of_resolve? (more handle name known)]
  rfl

/-- An integer is written as a numeral that reads back. -/
theorem spells_integer {span : Span} {value : Int64} (shallow : depth ≤ limit)
    (delimits : Byte.Delimits rest) :
    ∃ phrase, Spells table limit depth before (Numeral.ofInt value.toInt) rest phrase
      (.integer span value) := by
  apply spells_leaf .integer shallow
    (Scanner.cut_of_admits .integer _ (Numeral.isInteger_ofInt _) ⟨by simp, by simp⟩ delimits)
  intro place symbols more
  simp only [LeafKind.convert, Numeral.readInt64?_ofInt]
  rfl

/-- A float is written as a numeral that reads back, or as the word for infinity. -/
theorem spells_float {span : Span} {value : Binary64} (shallow : depth ≤ limit)
    (delimits : Byte.Delimits rest) :
    ∃ phrase, Spells table limit depth before (FloatStyle.source.write value) rest phrase
      (.float span value) := by
  by_cases finite : value.isFinite = true
  · obtain ⟨shaped, reads⟩ := FloatStyle.read?_write finite
    apply spells_leaf .float shallow
      (Scanner.cut_of_admits .float _ shaped ⟨by simp, by simp⟩ delimits)
    intro place symbols more
    simp only [LeafKind.convert, reads, Form.echo, finite, if_true]
    rfl
  · have proper : Byte.isName (Text.bytes (Form.infinityWord value.negative)) = true := by
      cases value.negative <;> decide
    rw [FloatStyle.write_of_infinite finite]
    apply spells_leaf .atom shallow
      (Scanner.cut_of_admits .atom _ proper ⟨by simp, by simp⟩ delimits)
    intro place symbols more
    simp only [LeafKind.convert, Text.ofBytes?_bytes, Form.echo, finite]
    rfl

/-- A string is written as a literal with its repaired contents. -/
theorem spells_string {span : Span} {contents : List UInt8} (shallow : depth ≤ limit) :
    ∃ phrase, Spells table limit depth before (Escape.literal (Utf8.repair contents)) rest phrase
      (.string span contents) := by
  apply spells_leaf .string shallow (Scanner.cut_literal _ _ rest)
  intro place symbols more
  simp only [LeafKind.convert, Escape.literalContents_literal]
  rfl

/-! ## Forms -/

/-- A blank and whatever comes after it continue nothing. -/
theorem delimits_blank {byte : UInt8} (blank : Byte.isBlank byte = true) (rest : List UInt8) :
    Byte.Delimits (byte :: rest) := by
  intro first same
  cases same
  constructor
  · exact Byte.isSymbol_of_isBlank blank
  · rintro rfl
    cases blank

/-- A right parenthesis and whatever comes after it continue nothing. -/
theorem delimits_rightParen (rest : List UInt8) : Byte.Delimits (Byte.rightParen :: rest) := by
  intro first same
  cases same
  exact ⟨rfl, by decide⟩

/-- What comes after the first of several items continues nothing. -/
theorem delimits_renderRest (table : SymbolTable) (items : List Form)
    (delimits : Byte.Delimits rest) :
    Byte.Delimits (Form.renderRest table items ++ rest) := by
  cases items with
  | nil => exact delimits
  | cons item items => exact delimits_blank rfl _

mutual

/-- The text of a form spells it, in front of anything that does not continue it. -/
theorem exists_spells {limit depth : Nat} (form : Form) (before rest : List UInt8)
    (legible : form.Every (Form.Legible table)) (within : form.Within limit depth)
    (delimits : Byte.Delimits rest) :
    ∃ phrase, Spells table limit depth before (form.render table) rest phrase form := by
  match form with
  | .list span items =>
    obtain ⟨phrases, spells⟩ := exists_spells_items items (before ++ [Byte.leftParen]) rest
      legible.2 within.2
    exact spells.list within.1
  | .quote span quoted =>
    obtain ⟨phrase, spells⟩ := exists_spells quoted (before ++ [Byte.apostrophe]) rest
      legible.2 within.2 delimits
    exact spells.quote within.1
  | .symbol span handle =>
    obtain ⟨name, known, proper⟩ := legible
    simp only [Form.render, Form.renderSymbol, known]
    exact spells_symbol within known proper delimits
  | .integer span value => exact spells_integer within delimits
  | .float span value => exact spells_float within delimits
  | .string span contents => exact spells_string within
  | .error span => exact absurd legible id

/-- The text between the parentheses of a list spells its items. -/
theorem exists_spells_items {limit depth : Nat} (items : List Form) (before rest : List UInt8)
    (legible : Form.EveryOf (Form.Legible table) items) (within : Form.WithinAll limit depth items) :
    ∃ phrases, SpellsAll table limit depth before (Form.renderItems table items)
      (Byte.rightParen :: rest) phrases items := by
  match items with
  | [] => exact ⟨[], .nil⟩
  | item :: others =>
    obtain ⟨phrase, first⟩ := exists_spells item before
      (Form.renderRest table others ++ Byte.rightParen :: rest) legible.1 within.1
      (delimits_renderRest table others (delimits_rightParen rest))
    obtain ⟨phrases, later⟩ := exists_spells_rest others (before ++ item.render table) rest
      legible.2 within.2
    exact ⟨phrase :: phrases, first.cons later⟩

/-- The text of the items after the first spells them. -/
theorem exists_spells_rest {limit depth : Nat} (items : List Form) (before rest : List UInt8)
    (legible : Form.EveryOf (Form.Legible table) items) (within : Form.WithinAll limit depth items) :
    ∃ phrases, SpellsAll table limit depth before (Form.renderRest table items)
      (Byte.rightParen :: rest) phrases items := by
  match items with
  | [] => exact ⟨[], .nil⟩
  | item :: others =>
    obtain ⟨phrase, first⟩ := exists_spells item (before ++ [Byte.space])
      (Form.renderRest table others ++ Byte.rightParen :: rest) legible.1 within.1
      (delimits_renderRest table others (delimits_rightParen rest))
    obtain ⟨phrases, later⟩ := exists_spells_rest others
      (before ++ [Byte.space] ++ item.render table) rest legible.2 within.2
    exact ⟨phrase :: phrases, (first.cons later).blank rfl⟩

end

/-- The text of a tree spells its top-level forms. -/
theorem exists_spells_lines {limit : Nat} (forms : List Form) (before : List UInt8)
    (legible : Form.EveryOf (Form.Legible table) forms) (within : Form.WithinAll limit 0 forms) :
    ∃ phrases, SpellsAll table limit 0 before (Tree.render table ⟨forms⟩) [] phrases forms := by
  induction forms generalizing before with
  | nil => exact ⟨[], .nil⟩
  | cons form others ih =>
    have text : Tree.render table ⟨form :: others⟩ =
        form.render table ++ Byte.newline :: Tree.render table ⟨others⟩ := by
      simp [Tree.render]
    rw [text]
    obtain ⟨phrase, first⟩ := exists_spells form before
      (Byte.newline :: Tree.render table ⟨others⟩ ++ []) legible.1 within.1
      (delimits_blank rfl _)
    obtain ⟨phrases, later⟩ := ih (before ++ form.render table ++ [Byte.newline])
      legible.2 within.2
    exact ⟨phrase :: phrases, first.cons (later.blank rfl)⟩

/-- The text of a tree derives phrases that are read as the echo of the tree. -/
theorem exists_derives_render {limit : Nat} {tree : Tree} (nonempty : tree.forms ≠ [])
    (legible : Form.EveryOf (Form.Legible table) tree.forms)
    (within : Form.WithinAll limit 0 tree.forms) :
    ∃ phrases, Derives limit (tree.render table) phrases ∧
      Scanner.findings (tree.render table) = [] ∧
      (convertAll (tree.render table) table phrases).withoutSpans =
        Form.echoes table tree.forms := by
  obtain ⟨phrases, spells⟩ := exists_spells_lines tree.forms [] legible within
  change SpellsAll table limit 0 [] (tree.render table) [] phrases tree.forms at spells
  have read := spells.reads table (.refl table)
  have cut := spells.cut
  rw [List.nil_append, List.append_nil] at read
  rw [List.append_nil, List.length_nil, Nat.zero_add, Scanner.cut_nil] at cut
  refine ⟨phrases, ⟨?_, ?_, spells.within⟩, ?_, read⟩
  · rintro rfl
    cases forms : tree.forms with
    | nil => exact nonempty forms
    | cons form others =>
      rw [forms] at read
      cases congrArg Converted.value read
  · rw [Scanner.tokens_eq_cut, cut, List.map_append, List.map_map]
    change _ = (tokensAll phrases).map id ++ _
    rw [List.map_id]
    rfl
  · rw [Scanner.findings, cut, List.flatMap_append, List.flatMap_map]
    change (tokensAll phrases).flatMap (fun _ => []) ++ _ = []
    simp

end Phrase

end LispReader

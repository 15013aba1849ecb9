import LispReader.Proofs.Concatenation
import LispReader.Proofs.Echo

/-!
# How spans nest

The span of a form says where the form is in the source, and spans nest as forms do. The tokens of a
source are in order, so the items of a list stand one behind the other between its parentheses, and
a quoted form behind its apostrophe. This is a fact about each form and its children. From it
follows for any two forms of a tree that one is inside the other exactly if its span is, and that
the spans have nothing in common otherwise; a walk goes through the forms by where they start.
-/

namespace LispReader

/-! ## Forms inside forms -/

namespace Form

/-- Whether a form is, directly or through other forms, around another. -/
inductive Encloses : Form → Form → Prop where
  | child {outer inner : Form} (direct : inner ∈ outer.children) : Encloses outer inner
  | deeper {outer between inner : Form} (direct : between ∈ outer.children)
      (further : Encloses between inner) : Encloses outer inner

variable {holds : Form → Prop}

/-- What holds of forms and of everything inside them holds of each form in that way. -/
theorem everyOf_iff {forms : List Form} :
    EveryOf holds forms ↔ ∀ form ∈ forms, form.Every holds := by
  induction forms with
  | nil => simp [EveryOf]
  | cons form rest ih => rw [EveryOf, ih, List.forall_mem_cons]

/-- What holds of a form and of everything inside it holds of all that it is around in that way. -/
theorem Every.of_encloses {outer inner : Form} (every : outer.Every holds)
    (encloses : outer.Encloses inner) : inner.Every holds := by
  induction encloses with
  | child direct => exact everyOf_iff.mp ((every_iff_children _).mp every).2 _ direct
  | deeper direct further ih =>
    exact ih (everyOf_iff.mp ((every_iff_children _).mp every).2 _ direct)

/-- A walk meets the forms of its worklist and what these are around. -/
theorem mem_walk {worklist : List Form} {form : Form} :
    form ∈ walk worklist ↔ ∃ top ∈ worklist, form = top ∨ top.Encloses form := by
  fun_induction walk worklist with
  | case1 => simp
  | case2 first rest ih =>
    rw [List.mem_cons, ih]
    constructor
    · rintro (rfl | ⟨top, member, within⟩)
      · exact ⟨form, List.mem_cons_self, .inl rfl⟩
      · rcases List.mem_append.mp member with direct | later
        · refine ⟨first, List.mem_cons_self, .inr ?_⟩
          rcases within with rfl | further
          · exact .child direct
          · exact .deeper direct further
        · exact ⟨top, List.mem_cons_of_mem _ later, within⟩
    · rintro ⟨top, member, within⟩
      rcases List.mem_cons.mp member with rfl | later
      · rcases within with rfl | encloses
        · exact .inl rfl
        · cases encloses with
          | child direct => exact .inr ⟨form, List.mem_append_left _ direct, .inl rfl⟩
          | deeper direct further => exact .inr ⟨_, List.mem_append_left _ direct, .inr further⟩
      · exact .inr ⟨top, List.mem_append_right _ later, within⟩

end Form

/-! ## Forms in their places -/

namespace Span

/-- Whether a span contains another and more than that. -/
def Surrounds (outer inner : Span) : Prop :=
  outer.start ≤ inner.start ∧ inner.stop ≤ outer.stop ∧ outer ≠ inner

end Span

namespace Form

/-- Whether a form and the forms directly inside it have the spans that they should have. The span
of a list goes from its left to its right parenthesis and its items stand between them, one behind
the other. The span of a quote goes from its apostrophe to the end of the form behind it. -/
def Seated (source : List UInt8) (form : Form) : Prop :=
  form.span.start < form.span.stop ∧ form.span.stop ≤ source.length ∧
    match form with
    | .list span items =>
      source[span.start]? = some Byte.leftParen ∧
        ⟨.leftParen, ⟨span.start, span.start + 1⟩⟩ ∈ Scanner.tokens source ∧
        source[span.stop - 1]? = some Byte.rightParen ∧
        ⟨.rightParen, ⟨span.stop - 1, span.stop⟩⟩ ∈ Scanner.tokens source ∧
        (∀ item ∈ items, span.start < item.span.start ∧ item.span.stop < span.stop) ∧
        items.Pairwise fun earlier later => earlier.span.stop ≤ later.span.start
    | .quote span quoted =>
      source[span.start]? = some Byte.apostrophe ∧
        ⟨.quote, ⟨span.start, span.start + 1⟩⟩ ∈ Scanner.tokens source ∧
        span.start < quoted.span.start ∧ quoted.span.stop = span.stop
    | .symbol _ _ | .integer _ _ | .float _ _ | .string _ _ | .error _ => True

variable {source : List UInt8}

/-- The children of a form in its place start after it, do not stop after it, and stand one behind
the other. -/
theorem Seated.children {form : Form} (seated : form.Seated source) :
    (∀ child ∈ form.children,
        form.span.start < child.span.start ∧ child.span.stop ≤ form.span.stop) ∧
      form.children.Pairwise fun earlier later => earlier.span.stop ≤ later.span.start := by
  cases form with
  | list span items =>
    obtain ⟨-, -, -, -, -, -, between, ordered⟩ := seated
    exact ⟨fun item member => ⟨(between item member).1, Nat.le_of_lt (between item member).2⟩,
      ordered⟩
  | quote span quoted =>
    obtain ⟨-, -, -, -, after, stops⟩ := seated
    refine ⟨fun child member => ?_, List.pairwise_singleton _ _⟩
    rw [List.mem_singleton.mp member]
    exact ⟨after, Nat.le_of_eq stops⟩
  | symbol | integer | float | string | error => exact ⟨fun _ => (nomatch ·), .nil⟩

/-- A form starts before everything that it is around, and nothing of that stops after it. -/
theorem Encloses.span {outer inner : Form} (encloses : outer.Encloses inner)
    (every : outer.Every (Seated source)) :
    outer.span.start < inner.span.start ∧ inner.span.stop ≤ outer.span.stop := by
  induction encloses with
  | child direct => exact ((every_iff_children _).mp every).1.children.1 _ direct
  | deeper direct further ih =>
    obtain ⟨seated, others⟩ := (every_iff_children _).mp every
    have first := seated.children.1 _ direct
    have second := ih (everyOf_iff.mp others _ direct)
    omega

/-- A walk through forms in their places, one behind the other, goes on inside a form or behind it.
-/
theorem pairwise_walk {worklist : List Form} (every : EveryOf (Seated source) worklist)
    (ordered : worklist.Pairwise fun earlier later => earlier.span.stop ≤ later.span.start) :
    (walk worklist).Pairwise fun earlier later =>
      earlier.Encloses later ∨ earlier.span.stop ≤ later.span.start := by
  fun_induction walk worklist with
  | case1 => exact .nil
  | case2 form rest ih =>
    obtain ⟨first, others⟩ := every
    obtain ⟨seated, inner⟩ := (every_iff_children form).mp first
    obtain ⟨inside, siblings⟩ := seated.children
    rw [List.pairwise_cons] at ordered ⊢
    constructor
    · -- What the walk meets later belongs to a child of this form or to a form behind it.
      intro later member
      obtain ⟨top, listed, within⟩ := mem_walk.mp member
      rcases List.mem_append.mp listed with direct | behind
      · rcases within with rfl | further
        · exact .inl (.child direct)
        · exact .inl (.deeper direct further)
      · have next := ordered.1 top behind
        rcases within with rfl | further
        · exact .inr next
        · have start := (further.span (everyOf_iff.mp others top behind)).1
          exact .inr (by omega)
    · apply ih (everyOf_append.mpr ⟨inner, others⟩)
      rw [List.pairwise_append]
      refine ⟨siblings, ordered.2, fun child direct later behind => ?_⟩
      exact Nat.le_trans (inside child direct).2 (ordered.1 later behind)

end Form

/-! ## Forms that are read -/

/-- The byte of a parenthesis or an apostrophe. -/
def TokenKind.mark? : TokenKind → Option UInt8
  | .leftParen => some Byte.leftParen
  | .rightParen => some Byte.rightParen
  | .quote => some Byte.apostrophe
  | .atom | .integer | .float | .string | .endOfInput | .error => none

/-- A token of a source that covers some of its bytes, and one byte if it is a parenthesis or an
apostrophe. -/
structure Token.Visible (source : List UInt8) (token : Token) : Prop where
  listed : token ∈ Scanner.tokens source
  start_lt_stop : token.span.start < token.span.stop
  stop_le_length : token.span.stop ≤ source.length
  mark : ∀ byte, token.kind.mark? = some byte →
    source[token.span.start]? = some byte ∧ token.span.length = 1

/-- Where a parenthesis or an apostrophe fits, it is the lexeme. -/
theorem TokenKind.Fits.of_mark? {kind : TokenKind} {lexeme rest : List UInt8} {byte : UInt8}
    (fits : kind.Fits lexeme rest) (mark : kind.mark? = some byte) :
    lexeme = [byte] ∧ kind.isMark = true := by
  cases kind with
  | leftParen | rightParen | quote =>
    cases mark
    exact ⟨fits, rfl⟩
  | atom | integer | float | string | endOfInput | error => cases mark

/-- Every token of a source but its end is visible. -/
theorem Scanner.visible_of_mem_tokens {source : List UInt8} {token : Token}
    (listed : token ∈ tokens source) (inner : token.kind ≠ .endOfInput) :
    token.Visible source := by
  obtain ⟨reported, member, rfl⟩ := List.mem_map.mp (tokens_eq_cut source ▸ listed)
  refine ⟨listed, Nat.lt_of_sub_pos (length_pos_of_mem_cut member inner), ?_, ?_⟩
  · obtain ⟨front, parts, -⟩ := tokens_eq_append_endOfInput source
    have ordered := (scanned_tokens source).ordered.2
    rw [parts] at listed ordered
    rcases List.mem_append.mp listed with earlier | last
    · exact (List.pairwise_append.mp ordered).2.2 _ earlier _ (List.mem_singleton_self _)
    · rw [List.mem_singleton.mp last] at inner
      exact absurd rfl inner
  · intro byte mark
    have proper : reported.token.kind ≠ .error := by
      intro error
      rw [error] at mark
      cases mark
    obtain ⟨rest, parts, fits⟩ := fits_of_mem_cut member inner proper
    obtain ⟨single, isMark⟩ := fits.of_mark? mark
    rw [single] at parts
    refine ⟨?_, length_of_mem_cut member isMark⟩
    rw [← List.head?_drop, parts]
    rfl

namespace Phrase

/-- A token of a phrase is a token of a row that has the phrase in it. -/
theorem mem_tokensAll {phrases : List Phrase} {token : Token} :
    token ∈ tokensAll phrases ↔ ∃ phrase ∈ phrases, token ∈ phrase.tokens := by
  induction phrases with
  | nil => simp [tokensAll]
  | cons phrase rest ih => simp [tokensAll, ih]

/-- A phrase stops with one of its tokens. -/
theorem exists_stop (phrase : Phrase) :
    ∃ token ∈ phrase.tokens, token.span.stop = phrase.span.stop := by
  cases phrase with
  | leaf kind span => exact ⟨⟨kind.tokenKind, span⟩, List.mem_singleton_self _, rfl⟩
  | list opening items closing =>
    exact ⟨⟨.rightParen, closing⟩,
      List.mem_cons_of_mem _ (List.mem_append_right _ (List.mem_singleton_self _)), rfl⟩
  | quote mark quoted =>
    obtain ⟨token, member, stop⟩ := exists_stop quoted
    exact ⟨token, List.mem_cons_of_mem _ member, stop⟩

/-- Phrases in order stand one behind the other. -/
theorem pairwise_span {phrases : List Phrase} (ordered : Token.Ordered (tokensAll phrases)) :
    phrases.Pairwise fun earlier later => earlier.span.stop ≤ later.span.start := by
  induction phrases with
  | nil => exact .nil
  | cons phrase rest ih =>
    rw [List.pairwise_cons]
    refine ⟨fun later member => ?_, ih ordered.of_append.2⟩
    obtain ⟨last, ends, stop⟩ := phrase.exists_stop
    obtain ⟨first, starts, start⟩ := later.exists_start
    rw [← stop, ← start]
    exact (List.pairwise_append.mp ordered.2).2.2 last ends first
      (mem_tokensAll.mpr ⟨later, member, starts⟩)

/-- Phrases in order are read as forms with the spans of the phrases. -/
theorem map_span_convertAll (source : List UInt8) (symbols : SymbolTable) {phrases : List Phrase}
    (ordered : Token.Ordered (tokensAll phrases)) :
    (convertAll source symbols phrases).value.map Form.span = phrases.map span := by
  induction phrases generalizing symbols with
  | nil => rfl
  | cons phrase rest ih =>
    obtain ⟨first, others⟩ := ordered.of_append
    simp only [convertAll, List.map_cons, span_convert phrase source symbols first, ih _ others]

/-- Phrases in order are read as forms that stand one behind the other. -/
theorem pairwise_span_convertAll (source : List UInt8) (symbols : SymbolTable)
    {phrases : List Phrase} (ordered : Token.Ordered (tokensAll phrases)) :
    (convertAll source symbols phrases).value.Pairwise fun earlier later =>
      earlier.span.stop ≤ later.span.start := by
  have spans := pairwise_span ordered
  rw [← List.pairwise_map (R := fun earlier later : Span => earlier.stop ≤ later.start)] at spans ⊢
  rw [map_span_convertAll source symbols ordered]
  exact spans

/-- A form that is read from one of the phrases in a row starts and stops with tokens of the row. -/
theorem exists_tokens_of_mem_convertAll {source : List UInt8} {symbols : SymbolTable}
    {phrases : List Phrase} (ordered : Token.Ordered (tokensAll phrases)) {form : Form}
    (member : form ∈ (convertAll source symbols phrases).value) :
    ∃ first ∈ tokensAll phrases, ∃ last ∈ tokensAll phrases,
      first.span.start = form.span.start ∧ last.span.stop = form.span.stop := by
  have listed := List.mem_map_of_mem (f := Form.span) member
  rw [map_span_convertAll source symbols ordered] at listed
  obtain ⟨phrase, found, same⟩ := List.mem_map.mp listed
  obtain ⟨first, starts, start⟩ := phrase.exists_start
  obtain ⟨last, ends, stop⟩ := phrase.exists_stop
  exact ⟨first, mem_tokensAll.mpr ⟨phrase, found, starts⟩, last,
    mem_tokensAll.mpr ⟨phrase, found, ends⟩, by rw [start, same], by rw [stop, same]⟩

/-- A leaf that is visible is read as a form in its place. -/
theorem seated_leaf {source : List UInt8} (symbols : SymbolTable) {kind : LeafKind} {span : Span}
    (visible : Token.Visible source ⟨kind.tokenKind, span⟩) :
    ((leaf kind span).convert source symbols).value.Every (Form.Seated source) := by
  have seated : span.start < span.stop ∧ span.stop ≤ source.length ∧ True :=
    ⟨visible.start_lt_stop, visible.stop_le_length, trivial⟩
  cases kind with
  | atom | integer | float =>
    simp only [convert, LeafKind.convert]
    split
    · exact seated
    · exact seated
  | string | error => exact seated

/-- A list of visible tokens in order is read as a form in its place. -/
theorem seated_list {source : List UInt8} (symbols : SymbolTable) {opening closing : Span}
    {items : List Phrase} (ordered : Token.Ordered (list opening items closing).tokens)
    (visible : ∀ token ∈ (list opening items closing).tokens, token.Visible source) :
    ((list opening items closing).convert source symbols).value.Seated source := by
  obtain ⟨-, others, after⟩ := ordered.of_cons
  obtain ⟨inner, -⟩ := others.of_append
  obtain ⟨-, between, -⟩ := stop_le_start_of_list ordered
  obtain ⟨listed, proper, -, marked⟩ := visible ⟨.leftParen, opening⟩ List.mem_cons_self
  obtain ⟨listed', proper', inside, marked'⟩ := visible ⟨.rightParen, closing⟩
    (List.mem_cons_of_mem _ (List.mem_append_right _ (List.mem_singleton_self _)))
  obtain ⟨byte, single⟩ := marked _ rfl
  obtain ⟨byte', single'⟩ := marked' _ rfl
  have shape : opening = ⟨opening.start, opening.start + 1⟩ := Span.eq_of_length_start single
  have shape' : closing = ⟨closing.stop - 1, closing.stop⟩ := Span.eq_of_length_stop single'
  have start : closing.start = closing.stop - 1 := congrArg Span.start shape'
  have form : ((list opening items closing).convert source symbols).value =
      .list ⟨opening.start, closing.stop⟩ (convertAll source symbols items).value :=
    congrArg (Form.list · _) (span_convert (list opening items closing) source symbols ordered)
  rw [form]
  refine ⟨?_, inside, byte, shape ▸ listed, start ▸ byte', shape' ▸ listed', ?_,
    pairwise_span_convertAll source symbols inner⟩
  · exact Nat.lt_of_lt_of_le proper (Nat.le_trans between (Nat.le_of_lt proper'))
  · intro item member
    obtain ⟨first, starts, last, ends, first_start, last_stop⟩ :=
      exists_tokens_of_mem_convertAll inner member
    have behind := after first (List.mem_append_left _ starts)
    have before := (List.pairwise_append.mp others.2).2.2 last ends _ (List.mem_singleton_self _)
    rw [← first_start, ← last_stop]
    exact ⟨Nat.lt_of_lt_of_le proper behind, Nat.lt_of_le_of_lt before proper'⟩

/-- A quote of visible tokens in order is read as a form in its place. -/
theorem seated_quote {source : List UInt8} (symbols : SymbolTable) {mark : Span} {quoted : Phrase}
    (ordered : Token.Ordered (quote mark quoted).tokens)
    (visible : ∀ token ∈ (quote mark quoted).tokens, token.Visible source) :
    ((quote mark quoted).convert source symbols).value.Seated source := by
  obtain ⟨-, after, others⟩ := stop_le_start_of_quote ordered
  obtain ⟨listed, proper, -, marked⟩ := visible ⟨.quote, mark⟩ List.mem_cons_self
  obtain ⟨byte, single⟩ := marked _ rfl
  have shape : mark = ⟨mark.start, mark.start + 1⟩ := Span.eq_of_length_start single
  obtain ⟨last, ends, stop⟩ := quoted.exists_stop
  have inside := (visible last (List.mem_cons_of_mem _ ends)).stop_le_length
  have inner := span_convert quoted source symbols others
  have form : ((quote mark quoted).convert source symbols).value =
      .quote ⟨mark.start, quoted.span.stop⟩ (quoted.convert source symbols).value :=
    congrArg (Form.quote · _) (span_convert (quote mark quoted) source symbols ordered)
  have covered := start_le_stop quoted others
  rw [form]
  refine ⟨?_, stop ▸ inside, byte, shape ▸ listed, ?_, ?_⟩
  · exact Nat.lt_of_lt_of_le proper (Nat.le_trans after covered)
  · rw [inner]
    exact Nat.lt_of_lt_of_le proper after
  · rw [inner]

mutual

/-- A phrase of visible tokens in order is read as forms in their places. -/
theorem seated_convert {source : List UInt8} (symbols : SymbolTable) (phrase : Phrase)
    (ordered : Token.Ordered phrase.tokens)
    (visible : ∀ token ∈ phrase.tokens, token.Visible source) :
    (phrase.convert source symbols).value.Every (Form.Seated source) := by
  match phrase with
  | .leaf kind span => exact seated_leaf symbols (visible _ (List.mem_singleton_self _))
  | .list opening items closing =>
    have inner := ordered.of_cons.2.1.of_append.1
    have within : Form.EveryOf (Form.Seated source) (convertAll source symbols items).value :=
      seated_convertAll symbols items inner fun token member =>
        visible token (List.mem_cons_of_mem _ (List.mem_append_left _ member))
    exact (Form.every_iff_children _).mpr ⟨seated_list symbols ordered visible, within⟩
  | .quote mark quoted =>
    have inner := ordered.of_cons.2.1
    have within : (quoted.convert source symbols).value.Every (Form.Seated source) :=
      seated_convert symbols quoted inner fun token member =>
        visible token (List.mem_cons_of_mem _ member)
    exact (Form.every_iff_children _).mpr ⟨seated_quote symbols ordered visible, within, trivial⟩

/-- Phrases of visible tokens in order are read as forms in their places. -/
theorem seated_convertAll {source : List UInt8} (symbols : SymbolTable) (phrases : List Phrase)
    (ordered : Token.Ordered (tokensAll phrases))
    (visible : ∀ token ∈ tokensAll phrases, token.Visible source) :
    Form.EveryOf (Form.Seated source) (convertAll source symbols phrases).value := by
  match phrases with
  | [] => trivial
  | phrase :: rest =>
    obtain ⟨first, others⟩ := ordered.of_append
    exact ⟨seated_convert symbols phrase first fun token member =>
        visible token (List.mem_append_left _ member),
      seated_convertAll _ rest others fun token member =>
        visible token (List.mem_append_right _ member)⟩

end

end Phrase

namespace Form

variable {source : List UInt8} {forms : List Form}

/-- Of two different forms that a walk meets, one is around the other or stands behind it. -/
theorem encloses_or_behind {first second : Form} (every : EveryOf (Seated source) forms)
    (ordered : forms.Pairwise fun earlier later => earlier.span.stop ≤ later.span.start)
    (met : first ∈ walk forms) (met' : second ∈ walk forms) (different : first ≠ second) :
    (first.Encloses second ∨ first.span.stop ≤ second.span.start) ∨
      (second.Encloses first ∨ second.span.stop ≤ first.span.start) := by
  have pairs := List.pairwise_iff_getElem.mp (pairwise_walk every ordered)
  obtain ⟨index, bound, rfl⟩ := List.getElem_of_mem met
  obtain ⟨index', bound', rfl⟩ := List.getElem_of_mem met'
  rcases Nat.lt_trichotomy index index' with before | same | behind
  · exact .inl (pairs index index' bound bound' before)
  · subst same
    exact absurd rfl different
  · exact .inr (pairs index' index bound' bound behind)

/-- Whatever holds of forms and of everything inside them holds in that way of what a walk meets. -/
theorem every_of_mem_walk {holds : Form → Prop} {form : Form} (every : EveryOf holds forms)
    (met : form ∈ walk forms) : form.Every holds := by
  obtain ⟨top, member, rfl | inside⟩ := mem_walk.mp met
  · exact everyOf_iff.mp every form member
  · exact (everyOf_iff.mp every top member).of_encloses inside

/-- Of two different forms that a walk meets, one is around the other exactly if its span is around
the span of the other. -/
theorem surrounds_iff_encloses {first second : Form} (every : EveryOf (Seated source) forms)
    (ordered : forms.Pairwise fun earlier later => earlier.span.stop ≤ later.span.start)
    (met : first ∈ walk forms) (met' : second ∈ walk forms) (different : first ≠ second) :
    first.span.Surrounds second.span ↔ first.Encloses second := by
  have first_every := every_of_mem_walk every met
  have second_every := every_of_mem_walk every met'
  have proper := ((every_iff_children second).mp second_every).1.1
  constructor
  · rintro ⟨start, stop, -⟩
    rcases encloses_or_behind every ordered met met' different with
      (around | behind) | (within | before)
    · exact around
    · omega
    · have earlier := (within.span second_every).1
      omega
    · omega
  · intro around
    obtain ⟨start, stop⟩ := around.span first_every
    refine ⟨Nat.le_of_lt start, stop, fun same => ?_⟩
    rw [same] at start
    exact Nat.lt_irrefl _ start

/-- A walk meets forms in the order in which they start. -/
theorem pairwise_start_walk (every : EveryOf (Seated source) forms)
    (ordered : forms.Pairwise fun earlier later => earlier.span.stop ≤ later.span.start) :
    (walk forms).Pairwise fun earlier later => earlier.span.start < later.span.start := by
  refine (pairwise_walk every ordered).imp_of_mem fun {earlier later} met _ related => ?_
  have earlier_every := every_of_mem_walk every met
  rcases related with around | behind
  · exact (around.span earlier_every).1
  · have proper := ((every_iff_children earlier).mp earlier_every).1.1
    omega

end Form

namespace Session

/-- Every form of a tree that is read has a span that is not empty and lies inside the source, with
its parentheses or its apostrophe where they should be and its items between them. Top-level forms
stand one behind the other, and a walk meets forms in the order in which they start, so that it
meets no form twice. Of two different forms one is around the other exactly if its span is, and if
neither is their spans have no byte in common. -/
theorem read_nests_spans (session : Session) (arena : Arena) (source : List UInt8) (tree : Tree)
    (succeeds : (session.read arena source).result = .ok tree) :
    (∀ form ∈ tree.walk, form.Seated source) ∧
      (tree.forms.Pairwise fun earlier later => earlier.span.stop ≤ later.span.start) ∧
      (tree.walk.Pairwise fun earlier later => earlier.span.start < later.span.start) ∧
      ∀ first ∈ tree.walk, ∀ second ∈ tree.walk, first ≠ second →
        (first.span.Surrounds second.span ↔ first.Encloses second) ∧
          (¬first.Encloses second → ¬second.Encloses first →
            first.span.stop ≤ second.span.start ∨ second.span.stop ≤ first.span.start) := by
  obtain ⟨phrases, derives, rfl, -⟩ := gives_of_read succeeds
  have visible : ∀ token ∈ Phrase.tokensAll phrases, token.Visible source := by
    intro token member
    have inner := Phrase.kind_ne_endOfInput_of_mem_all phrases member
    exact Scanner.visible_of_mem_tokens (derives.tokens ▸ List.mem_append_left _ member) inner
  have in_order := derives.scanned.ordered
  have every := Phrase.seated_convertAll session.symbols phrases in_order visible
  have ordered := Phrase.pairwise_span_convertAll source session.symbols in_order
  refine ⟨(Form.forall_mem_walk _).mpr every, ordered, Form.pairwise_start_walk every ordered,
    fun first met second met' different =>
      ⟨Form.surrounds_iff_encloses every ordered met met' different, fun apart apart' => ?_⟩⟩
  rcases Form.encloses_or_behind every ordered met met' different with
    (around | behind) | (around | behind)
  · exact absurd around apart
  · exact .inl behind
  · exact absurd around apart'
  · exact .inr behind

/-- Two apostrophes before an empty list: both quotes and the list stop together, and the outer
quote is around the list because its span starts earlier. -/
theorem read_nests_spans_two_quotes :
    let source : List UInt8 :=
      [Byte.apostrophe, Byte.apostrophe, Byte.leftParen, Byte.rightParen]
    let session : Session := .create .default
    let arena : Arena := ⟨Arena.blockAddress, 512, 0, by decide, by decide, by decide⟩
    let inner : Form := .list ⟨2, 4⟩ []
    let outer : Form := .quote ⟨0, 4⟩ (.quote ⟨1, 4⟩ inner)
    (session.read arena source).result = .ok ⟨[outer]⟩ ∧ outer.span.Surrounds inner.span ∧
      outer.Encloses inner ∧ inner.Seated source := by
  intro source session arena inner outer
  have tokens : Scanner.tokens source = [⟨.quote, ⟨0, 1⟩⟩, ⟨.quote, ⟨1, 2⟩⟩, ⟨.leftParen, ⟨2, 3⟩⟩,
      ⟨.rightParen, ⟨3, 4⟩⟩, .endOfInput 4] := by
    rw [Scanner.tokens_eq_cut, Scanner.cut_apostrophe, Scanner.cut_apostrophe,
      Scanner.cut_leftParen, Scanner.cut_rightParen, Scanner.cut_nil]
    rfl
  have derives : Phrase.Derives session.settings.depthLimit source
      [.quote ⟨0, 1⟩ (.quote ⟨1, 2⟩ (.list ⟨2, 3⟩ [] ⟨3, 4⟩))] := by
    have within : 2 ≤ session.settings.depthLimit := by decide
    exact ⟨by simp, tokens.symm, ⟨Nat.zero_le _, Nat.le_of_succ_le within, within, trivial⟩,
      trivial⟩
  have succeeds : (session.read arena source).result = .ok ⟨[outer]⟩ :=
    (gives_of_derives (by decide) derives (.inl (by decide))).result
  obtain ⟨seated, -, -, related⟩ := read_nests_spans session arena source _ succeeds
  have walk : Tree.walk ⟨[outer]⟩ = [outer, .quote ⟨1, 4⟩ inner, inner] := by
    simp [Tree.walk, Form.walk, Form.children, outer, inner]
  rw [walk] at seated related
  have surrounds : outer.span.Surrounds inner.span := ⟨by decide, by decide, by decide⟩
  exact ⟨succeeds, surrounds,
    (related outer (by simp) inner (by simp) (by simp [outer, inner])).1.mp surrounds,
    seated inner (by simp)⟩

end Session

end LispReader

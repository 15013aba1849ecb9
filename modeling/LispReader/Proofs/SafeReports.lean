import LispReader.Form.Render
import LispReader.Proofs.ExactPositions
import LispReader.Proofs.SafeRead
import LispReader.Proofs.WalkOrder

/-!
# Reading, writing and reporting within bounds

After a read its tree is walked and written, and what has been reported is shown at lines and
columns. A walk looks nothing up. A tree is written behind what has been written before, where only
a float is looked at again, and what is written for a form is a part of what is written for the
tree. A finding concerns a token that covers some bytes, so it starts in front of the largest word
and has a position. What stops a read may lie at the end of its source, and this has a position too,
but for one case: the end of the longest source, if it has no newline.
-/

namespace LispReader

/-! ## Writing -/

namespace Form

variable {table : SymbolTable}

mutual

/-- What is written for a form inside another is a part of what is written for that one. -/
theorem infix_render (form : Form) :
    ∀ inner ∈ form.preorder, inner.render table <:+: form.render table := by
  intro inner member
  cases form with
  | list span items =>
    rcases List.mem_cons.mp member with rfl | inside
    · exact List.infix_rfl
    · have part := infix_renderItems items inner inside
      rw [render]
      exact (part.trans (List.prefix_append _ _).isInfix).trans (List.suffix_cons _ _).isInfix
  | quote span quoted =>
    rcases List.mem_cons.mp member with rfl | inside
    · exact List.infix_rfl
    · rw [render]
      exact (infix_render quoted inner inside).trans (List.suffix_cons _ _).isInfix
  | symbol _ _ | integer _ _ | float _ _ | string _ _ | error _ =>
    obtain rfl := List.mem_singleton.mp member
    exact List.infix_rfl

/-- What is written for a form in a row is a part of what is written for the row. -/
theorem infix_renderItems (items : List Form) :
    ∀ inner ∈ preorderAll items, inner.render table <:+: renderItems table items := by
  intro inner member
  cases items with
  | nil => cases member
  | cons item rest =>
    rw [renderItems]
    rcases List.mem_append.mp member with first | later
    · exact (infix_render item inner first).trans (List.prefix_append _ _).isInfix
    · exact (infix_renderRest rest inner later).trans (List.suffix_append _ _).isInfix

/-- What is written for a later form in a row is a part of what is written for those. -/
theorem infix_renderRest (items : List Form) :
    ∀ inner ∈ preorderAll items, inner.render table <:+: renderRest table items := by
  intro inner member
  cases items with
  | nil => cases member
  | cons item rest =>
    rw [renderRest]
    rcases List.mem_append.mp member with first | later
    · exact ((infix_render item inner first).trans (List.prefix_append _ _).isInfix).trans
        (List.suffix_cons _ _).isInfix
    · exact ((infix_renderRest rest inner later).trans (List.suffix_append _ _).isInfix).trans
        (List.suffix_cons _ _).isInfix

end

end Form

/-- What is written for a form of a tree is a part of what is written for the tree. -/
theorem Tree.infix_render (table : SymbolTable) (tree : Tree) :
    ∀ form ∈ tree.walk, form.render table <:+: tree.render table := by
  intro form member
  rw [Tree.walk, Form.walk_eq_preorderAll, Form.preorderAll_eq_flatMap] at member
  obtain ⟨top, listed, inside⟩ := List.mem_flatMap.mp member
  obtain ⟨front, back, forms⟩ := List.append_of_mem listed
  have part : top.render table <:+: tree.render table := by
    rw [Tree.render, forms, List.flatMap_append, List.flatMap_cons]
    exact ((List.prefix_append _ _).isInfix.trans (List.prefix_append _ _).isInfix).trans
      (List.suffix_append _ _).isInfix
  exact (Form.infix_render top form inside).trans part

/-- Whether a tree is written within bounds: what is written for a float is looked up from the place
on at which the text ended before. -/
def Tree.WritesSafely (table : SymbolTable) (tree : Tree) : Prop :=
  ∀ span value, Form.float span value ∈ tree.walk → ∃ before after,
    let longer := before ++ FloatStyle.source.write value
    tree.render table = longer ++ after ∧ before.length ≤ longer.length ∧
      longer.drop before.length = FloatStyle.source.write value

/-- Every tree is written within bounds. -/
theorem Tree.writesSafely (table : SymbolTable) (tree : Tree) : tree.WritesSafely table := by
  intro span value member
  obtain ⟨before, after, text⟩ := tree.infix_render table _ member
  have longer : before.length ≤ (before ++ FloatStyle.source.write value).length := by simp
  exact ⟨before, after, text.symm, longer, List.drop_left⟩

/-! ## Places of findings and errors -/

/-- A token about which something is found when it is converted covers some bytes. -/
theorem Token.visible_of_mem_conversions {source : List UInt8} {token : Token} {finding : Finding}
    (listed : token ∈ Scanner.tokens source) (found : finding ∈ token.conversions source) :
    token.Visible source := by
  refine Scanner.visible_of_mem_tokens listed fun last => ?_
  simp only [conversions, last] at found
  cases found

namespace Session

variable {session : Session} {arena : Arena} {source : List UInt8}

/-- What a read finds concerns tokens that cover some bytes. -/
theorem exists_visible_of_told {size taken : Nat} {findings : List Finding}
    (told : TokenFeed.Told source size taken (session.converted arena source) findings) :
    ∀ finding ∈ findings, ∃ token : Token, token.Visible source ∧ finding.span = token.span := by
  intro finding member
  rcases told.exists_about member with ⟨token, listed, error, same⟩ | ⟨token, converted, found⟩
  · exact ⟨token, Scanner.visible_of_mem_tokens listed (by simp [error]), same⟩
  · exact ⟨token, Token.visible_of_mem_conversions (mem_tokens_of_mem_converted converted) found,
      (Token.of_mem_conversions found).1⟩

/-- What a read reports has an exact position. -/
theorem exists_isExact_of_told (short : source.length < UInt32.size) {size taken : Nat}
    {findings : List Finding}
    (told : TokenFeed.Told source size taken (session.converted arena source) findings) :
    ∀ finding ∈ findings, ∃ position,
      (LineStarts.ofSource source).position finding.span.start = some position ∧
        position.IsExact source finding.span.start := by
  intro finding member
  obtain ⟨token, visible, same⟩ := exists_visible_of_told told finding member
  have covers := visible.start_lt_stop
  have inside := visible.stop_le_length
  rw [same]
  exact LineStarts.exists_isExact_of_reach short (by omega)
    (LineStarts.not_outOfReach_of_lt covers (by omega))

/-- Nothing is read from blanks. -/
theorem read_of_blanks (session : Session) (arena : Arena)
    (short : source.length < Scanner.sourceLimit) (blank : source.all Byte.isBlank = true) :
    (session.read arena source).result = .error .empty := by
  have cut := Scanner.cut_blanks blank 0 []
  rw [List.append_nil, Scanner.cut_nil] at cut
  have ran : Nest.run session.settings.depthLimit source .empty (Scanner.tokens source)
      ⟨arena, session.symbols, []⟩ = .error .empty ⟨arena, session.symbols, []⟩ := by
    rw [Scanner.tokens_eq_cut, cut]
    rfl
  exact result_of_run short ran

/-- What stops a read lies in its source or at the end. -/
theorem start_le_length_of_error {problem : ReadError}
    (fails : (session.read arena source).result = .error problem) :
    problem.diagnostic.span.start ≤ source.length := by
  cases place : problem.span? with
  | none =>
    simp only [ReadError.diagnostic, Diagnostic.error, place]
    exact Nat.zero_le _
  | some span =>
    obtain ⟨token, listed, rfl⟩ := names_of_read fails span place
    have safe := Token.readsSafely_of_mem listed
    simp only [ReadError.diagnostic, Diagnostic.error, place]
    exact Nat.le_trans safe.ordered safe.inside

/-- What stops a read is out of reach only at the end of the longest source without a newline. -/
theorem outOfReach_iff_of_error (short : source.length < UInt32.size) {problem : ReadError}
    (fails : (session.read arena source).result = .error problem) :
    LineStarts.OutOfReach source problem.diagnostic.span.start ↔
      problem.diagnostic.span.start + 1 = UInt32.size ∧ Byte.newline ∉ source := by
  have last : problem.diagnostic.span.start + 1 = UInt32.size ↔
      problem.diagnostic.span.start = 4294967295 := Nat.succ_inj
  rw [last, LineStarts.OutOfReach]
  refine and_congr_right fun place => or_iff_left fun all => ?_
  -- Such a source is read as nothing at all, which is no error at its end.
  have blank : source.all Byte.isBlank = true := by
    rw [all, List.all_replicate, if_neg (by decide)]
    rfl
  rw [read_of_blanks session arena short blank] at fails
  cases fails
  cases place

/-- An apostrophe and spaces after it end where a form is expected. -/
theorem read_of_spaces (session : Session) (arena : Arena) {count : Nat}
    (shallow : 1 ≤ session.settings.depthLimit) (short : count + 1 < Scanner.sourceLimit) :
    (session.read arena (Byte.apostrophe :: List.replicate count Byte.space)).result =
      .error (.unexpectedEnd ⟨count + 1, count + 1⟩) := by
  have length : (Byte.apostrophe :: List.replicate count Byte.space).length = count + 1 := by
    rw [List.length_cons, List.length_replicate]
  have blank : (List.replicate count Byte.space).all Byte.isBlank = true := by
    rw [List.all_replicate]
    split <;> rfl
  have cut := Scanner.cut_blanks blank 1 []
  rw [List.append_nil, Scanner.cut_nil, List.length_replicate, Nat.add_comm 1] at cut
  have ran : Nest.run session.settings.depthLimit
      (Byte.apostrophe :: List.replicate count Byte.space) .empty
      (Scanner.tokens (Byte.apostrophe :: List.replicate count Byte.space))
      ⟨arena, session.symbols, []⟩ =
        .error (.unexpectedEnd ⟨count + 1, count + 1⟩) ⟨arena, session.symbols, []⟩ := by
    rw [Scanner.tokens_eq_cut, Scanner.cut_apostrophe, Nat.zero_add, cut, List.map_cons,
      Nest.run, if_neg (by simp), Nest.take_quote _ _ (Nat.zero_le _)]
    have ends : Nest.finish session.settings.depthLimit ⟨[.quote ⟨0, 1⟩], []⟩
        ⟨count + 1, count + 1⟩ = throw (.unexpectedEnd ⟨count + 1, count + 1⟩) :=
      if_neg (Nat.not_lt_of_le shallow)
    exact congrFun ends _
  exact result_of_run (length ▸ short) ran

/-- A source whose length is a word is read within bounds. Going on from any turn, a read comes to
the same end. All that the turn relies on holds, and wherever a fill comes to, so does all that it
relies on there. Every tree is written within bounds. What is reported has an exact position. What
stops the read has one too, unless it is the end of the longest source and there is no newline in
this: then it has none, and in no other case. -/
theorem read_within_bounds (session : Session) (arena : Arena) (source : List UInt8)
    (short : source.length < UInt32.size) :
    let reading := session.read arena source
    let lines := LineStarts.ofSource source
    (∀ feed nest workspace, session.Turns arena source feed nest workspace →
      feed.drive session.settings.depthLimit source nest workspace =
          (TokenFeed.start (.start source) session.batchWindow).drive session.settings.depthLimit
            source .empty ⟨arena, session.symbols, []⟩ ∧
        feed.TurnsSafely source nest ∧
        ∀ standing filled written,
          Scanner.Reaches feed.scanner feed.window.reset standing filled written →
            standing.LooksSafely source filled written) ∧
      (∀ (table : SymbolTable) (tree : Tree), tree.WritesSafely table) ∧
      (∃ reported, reading.session.diagnostics = session.diagnostics ++ reported ∧
        ∀ diagnostic ∈ reported, ∃ position,
          lines.position diagnostic.span.start = some position ∧
            position.IsExact source diagnostic.span.start) ∧
      ∀ problem, reading.result = .error problem →
        let offset := problem.diagnostic.span.start
        (lines.position offset = none ↔ offset + 1 = UInt32.size ∧ Byte.newline ∉ source) ∧
          ∀ position, lines.position offset = some position → position.IsExact source offset := by
  intro reading lines
  refine ⟨fun feed nest workspace turns => ?_, fun table tree => tree.writesSafely table, ?_,
    fun problem fails => ?_⟩
  · have place := turns.onCourse.place
    exact ⟨turns.drive_eq, turns.turnsSafely, fun standing filled written reaches =>
      reaches.looksSafely short place.narrow place.stands⟩
  · obtain ⟨findings, reported, told⟩ := session.told_read arena source
    refine ⟨_, reported, fun diagnostic member => ?_⟩
    obtain ⟨finding, found, rfl⟩ := List.mem_map.mp member
    exact exists_isExact_of_told short told finding found
  · have word := Nat.lt_of_le_of_lt (start_le_length_of_error fails) short
    obtain ⟨fails_there, exact_⟩ := LineStarts.position_eq_none_iff short word
    exact ⟨fails_there.trans (outOfReach_iff_of_error short fails), exact_⟩

/-- A list that is not closed: the read starts with a safe turn, and the parenthesis that stops it
has an exact position. -/
theorem read_within_bounds_unclosed :
    let session : Session := .create .default
    let arena : Arena := ⟨Arena.blockAddress, 512, 0, by decide, by decide, by decide⟩
    let source : List UInt8 := [Byte.newline, Byte.leftParen]
    let lines := LineStarts.ofSource source
    source.length < UInt32.size ∧
      (TokenFeed.start (.start source) session.batchWindow).TurnsSafely source .empty ∧
      (session.read arena source).result = .error (.unclosed ⟨1, 2⟩) ∧
      ∃ position, lines.position 1 = some position ∧ position.IsExact source 1 := by
  intro session arena source lines
  have short : source.length < UInt32.size := by decide
  have ran : Nest.run 256 source .empty (Scanner.tokens source) ⟨arena, .empty, []⟩ =
      .error (.unclosed ⟨1, 2⟩) ⟨arena, .empty, []⟩ := by
    rw [Scanner.tokens_eq_cut, Scanner.cut_blank rfl, Scanner.cut_leftParen, Scanner.cut_nil]
    rfl
  have result : (session.read arena source).result = .error (.unclosed ⟨1, 2⟩) :=
    result_of_run short ran
  obtain ⟨turns, -, -, positions⟩ := session.read_within_bounds arena source short
  obtain ⟨fails, exact_⟩ := positions _ result
  obtain ⟨position, found⟩ := Option.ne_none_iff_exists'.mp fun none_there =>
    absurd (fails.mp none_there).1 (by decide)
  exact ⟨short, (turns _ _ _ .start).2.1, result, position, found, exact_ position found⟩

/-- The longest source may end where a form is expected and have no newline. Its only line is that
of an apostrophe, and the column of its end is no word. -/
theorem column_overflows_at_end :
    let session : Session := .create .default
    let arena : Arena := ⟨Arena.blockAddress, 512, 0, by decide, by decide, by decide⟩
    let source := Byte.apostrophe :: List.replicate 4294967294 Byte.space
    source.length < UInt32.size ∧
      (session.read arena source).result = .error (.unexpectedEnd ⟨4294967295, 4294967295⟩) ∧
      LineStarts.ofSource source = LineStarts.ofSource [Byte.apostrophe] ∧
      (LineStarts.ofSource source).position 4294967295 = none := by
  intro session arena
  have length : (Byte.apostrophe :: List.replicate 4294967294 Byte.space).length = 4294967295 := by
    rw [List.length_cons, List.length_replicate]
  have short : (Byte.apostrophe :: List.replicate 4294967294 Byte.space).length < UInt32.size := by
    rw [length]
    decide
  have single : Byte.newline ∉ Byte.apostrophe :: List.replicate 4294967294 Byte.space := by
    rw [List.mem_cons, not_or]
    exact ⟨by decide, fun member => absurd (List.eq_of_mem_replicate member) (by decide)⟩
  refine ⟨short, read_of_spaces session arena (by decide) (by decide), ?_,
    LineStarts.position_eq_none_of_outOfReach short (by decide) ⟨rfl, .inl single⟩⟩
  exact (LineStarts.ofSource_of_not_mem single).trans
    (LineStarts.ofSource_of_not_mem (by decide)).symm

end Session

end LispReader

import LispReader.Proofs.Reading

/-!
# Outlines

The structure of a source is settled by one pass over its tokens with a stack: an outline holds the
lists and quotes that are open and the phrases that are complete, and takes one token after the
other until one of them fits nowhere. Nothing is read and nothing is paid for. Written out, an
outline gives back the tokens that it took, so a pass that reaches the end of the input has found
the derivation of the source.
-/

namespace LispReader

/-- A list or quote that is not complete. -/
inductive Mark where
  /-- A list with its left parenthesis and its items so far, the last first. -/
  | list (opening : Span) (items : List Phrase)
  /-- A quote that waits for its phrase. -/
  | quote (mark : Span)

/-- The marks that are open, innermost first, and the complete top-level phrases, last first. -/
structure Outline where
  marks : List Mark
  phrases : List Phrase

namespace Outline

/-- The outline before the first token. -/
def empty : Outline := ⟨[], []⟩

/-- The number of lists and quotes around whatever comes next. -/
def depth (outline : Outline) : Nat := outline.marks.length

/-- Whether the innermost mark is a quote, after which a form must start. -/
def awaitsForm (outline : Outline) : Bool :=
  match outline.marks with
  | .quote _ :: _ => true
  | .list _ _ :: _ | [] => false

/-- Adds a complete phrase: it completes the quotes that wait for it, and joins the innermost list
or the top level. -/
def place (phrase : Phrase) : (marks : List Mark) → (phrases : List Phrase) → Outline
  | [], phrases => ⟨[], phrase :: phrases⟩
  | .list opening items :: outer, phrases => ⟨.list opening (phrase :: items) :: outer, phrases⟩
  | .quote mark :: outer, phrases => place (.quote mark phrase) outer phrases

/-- Takes a token, or says what is wrong with it. Where a form starts or must start, too many open
marks are found before anything else. -/
def step (limit : Nat) (outline : Outline) (token : Token) : Except ReadError Outline :=
  if (Phrase.opens token.kind || outline.awaitsForm) && limit < outline.depth then
    .error (.tooDeep token.span limit)
  else
    match token.kind, outline.marks with
    | .rightParen, .list opening items :: outer =>
      .ok (place (.list opening items.reverse token.span) outer outline.phrases)
    | .rightParen, _ => .error (.unbalanced token.span)
    | .endOfInput, .quote _ :: _ => .error (.unexpectedEnd token.span)
    | .endOfInput, .list opening _ :: _ => .error (.unclosed opening)
    | .endOfInput, [] => if outline.phrases.isEmpty then .error .empty else .ok outline
    | .leftParen, marks => .ok { outline with marks := .list token.span [] :: marks }
    | .quote, marks => .ok { outline with marks := .quote token.span :: marks }
    | .atom, marks => .ok (place (.leaf .atom token.span) marks outline.phrases)
    | .integer, marks => .ok (place (.leaf .integer token.span) marks outline.phrases)
    | .float, marks => .ok (place (.leaf .float token.span) marks outline.phrases)
    | .string, marks => .ok (place (.leaf .string token.span) marks outline.phrases)
    | .error, marks => .ok (place (.leaf .error token.span) marks outline.phrases)

/-- Takes tokens from left to right until one of them is wrong. -/
def steps (limit : Nat) (outline : Outline) (tokens : List Token) : Except ReadError Outline :=
  tokens.foldlM (step limit) outline

/-- The phrases that tokens are made of, or the first fault in them. -/
def pass (limit : Nat) (tokens : List Token) : Except ReadError (List Phrase) :=
  (empty.steps limit tokens).map fun outline => outline.phrases.reverse

/-! ## Steps in a row -/

/-- Tokens are taken one by one. -/
theorem steps_cons (limit : Nat) (outline : Outline) (token : Token) (rest : List Token) :
    outline.steps limit (token :: rest) = (do
      let between ← outline.step limit token
      between.steps limit rest) := rfl

/-- A token by itself is taken in one step. -/
theorem steps_singleton (limit : Nat) (outline : Outline) (token : Token) :
    outline.steps limit [token] = outline.step limit token := by
  rw [steps_cons]
  cases outline.step limit token <;> rfl

/-- If tokens are taken, so is the first, and then the others. -/
theorem exists_of_steps_cons {limit : Nat} {outline after : Outline} {token : Token}
    {rest : List Token} (taken : outline.steps limit (token :: rest) = .ok after) :
    ∃ between, outline.step limit token = .ok between ∧ between.steps limit rest = .ok after := by
  rw [steps_cons] at taken
  cases took : outline.step limit token with
  | error problem =>
    rw [took] at taken
    cases taken
  | ok between =>
    rw [took] at taken
    exact ⟨between, rfl, taken⟩

/-- After tokens that are taken the others are taken. -/
theorem steps_append {limit : Nat} {outline between : Outline} {front : List Token}
    (taken : outline.steps limit front = .ok between) (rest : List Token) :
    outline.steps limit (front ++ rest) = between.steps limit rest := by
  rw [steps, List.foldlM_append, show front.foldlM (step limit) outline = .ok between from taken]
  rfl

/-- A wrong token ends the pass, whatever comes after it. -/
theorem steps_of_error {limit : Nat} {outline between : Outline} {front : List Token}
    {token : Token} {problem : ReadError} (taken : outline.steps limit front = .ok between)
    (wrong : between.step limit token = .error problem) (rest : List Token) :
    outline.steps limit (front ++ token :: rest) = .error problem := by
  rw [steps_append taken, steps_cons, wrong]
  rfl

/-- What is wrong with tokens is what is wrong with the first of them that cannot be taken. -/
theorem exists_of_steps_error {limit : Nat} {outline : Outline} {tokens : List Token}
    {problem : ReadError} (wrong : outline.steps limit tokens = .error problem) :
    ∃ front token rest between, tokens = front ++ token :: rest ∧
      outline.steps limit front = .ok between ∧ between.step limit token = .error problem := by
  induction tokens generalizing outline with
  | nil => cases wrong
  | cons token rest ih =>
    rw [steps_cons] at wrong
    cases took : outline.step limit token with
    | error other =>
      rw [took] at wrong
      exact ⟨[], token, rest, outline, rfl, rfl, took.trans wrong⟩
    | ok between =>
      rw [took] at wrong
      obtain ⟨front, token', rest', between', rfl, taken, failed⟩ := ih wrong
      refine ⟨token :: front, token', rest', between', rfl, ?_, failed⟩
      rw [steps_cons, took]
      exact taken

/-- Tokens that are taken are taken in two parts. -/
theorem exists_of_steps_ok {limit : Nat} {outline after : Outline} {front rest : List Token}
    (taken : outline.steps limit (front ++ rest) = .ok after) :
    ∃ between, outline.steps limit front = .ok between ∧
      between.steps limit rest = .ok after := by
  cases first : outline.steps limit front with
  | ok between => exact ⟨between, rfl, (steps_append first rest).symm.trans taken⟩
  | error problem =>
    obtain ⟨front, token, others, between, rfl, took, wrong⟩ := exists_of_steps_error first
    rw [List.append_assoc, List.cons_append, steps_of_error took wrong] at taken
    cases taken

/-- A pass gives the phrases that are complete after the last token. -/
theorem pass_eq_ok {limit : Nat} {tokens : List Token} {phrases : List Phrase} :
    pass limit tokens = .ok phrases ↔
      ∃ after, empty.steps limit tokens = .ok after ∧ after.phrases.reverse = phrases := by
  rw [pass]
  cases empty.steps limit tokens with
  | error problem => simp [Except.map]
  | ok after => simp [Except.map]

/-- A pass fails with the first fault in the tokens. -/
theorem pass_eq_error {limit : Nat} {tokens : List Token} {problem : ReadError} :
    pass limit tokens = .error problem ↔ empty.steps limit tokens = .error problem := by
  rw [pass]
  cases empty.steps limit tokens with
  | error problem => simp [Except.map]
  | ok after => simp [Except.map]

/-! ## What one step does -/

/-- What a token that fits does to an outline. -/
inductive Takes (limit : Nat) (outline : Outline) : Token → Outline → Prop where
  | leftParen (span : Span) (shallow : outline.depth ≤ limit) :
    Takes limit outline ⟨.leftParen, span⟩ { outline with marks := .list span [] :: outline.marks }
  | quote (span : Span) (shallow : outline.depth ≤ limit) :
    Takes limit outline ⟨.quote, span⟩ { outline with marks := .quote span :: outline.marks }
  | leaf (kind : LeafKind) (span : Span) (shallow : outline.depth ≤ limit) :
    Takes limit outline ⟨kind.tokenKind, span⟩
      (place (.leaf kind span) outline.marks outline.phrases)
  | rightParen (span : Span) {opening : Span} {items : List Phrase} {outer : List Mark}
      (innermost : outline.marks = .list opening items :: outer) :
    Takes limit outline ⟨.rightParen, span⟩
      (place (.list opening items.reverse span) outer outline.phrases)
  | ending (span : Span) (closed : outline.marks = []) (nonempty : outline.phrases ≠ []) :
    Takes limit outline ⟨.endOfInput, span⟩ outline

/-- What is wrong with a token that fits nowhere. -/
inductive Refuses (limit : Nat) (outline : Outline) : Token → ReadError → Prop where
  | tooDeep (token : Token) (starts : (Phrase.opens token.kind || outline.awaitsForm) = true)
      (deep : limit < outline.depth) : Refuses limit outline token (.tooDeep token.span limit)
  | unbalanced (span : Span)
      (unopened : outline.marks = [] ∨ outline.awaitsForm = true ∧ outline.depth ≤ limit) :
    Refuses limit outline ⟨.rightParen, span⟩ (.unbalanced span)
  | unexpectedEnd (span : Span) (awaits : outline.awaitsForm = true)
      (shallow : outline.depth ≤ limit) :
    Refuses limit outline ⟨.endOfInput, span⟩ (.unexpectedEnd span)
  | unclosed (span : Span) {opening : Span} {items : List Phrase} {outer : List Mark}
      (innermost : outline.marks = .list opening items :: outer) :
    Refuses limit outline ⟨.endOfInput, span⟩ (.unclosed opening)
  | empty (span : Span) (closed : outline.marks = []) (none_complete : outline.phrases = []) :
    Refuses limit outline ⟨.endOfInput, span⟩ .empty

/-- A token with which a form starts or must start is refused where too many marks are open. -/
theorem step_of_deep {limit : Nat} {outline : Outline} {token : Token}
    (starts : (Phrase.opens token.kind || outline.awaitsForm) = true)
    (deep : limit < outline.depth) :
    outline.step limit token = .error (.tooDeep token.span limit) := by
  rw [step, if_pos (by simp [starts, deep])]

/-- A leaf is put in its place where there is room for a form. -/
theorem step_leaf {limit : Nat} {outline : Outline} (kind : LeafKind) (span : Span)
    (shallow : outline.depth ≤ limit) :
    outline.step limit ⟨kind.tokenKind, span⟩ =
      .ok (place (.leaf kind span) outline.marks outline.phrases) := by
  rw [step, if_neg (by simp [Nat.not_lt_of_le shallow])]
  cases kind <;> rfl

/-- A token is taken or refused for one of the reasons that there are. -/
theorem takes_or_refuses (limit : Nat) (outline : Outline) (token : Token) :
    (∃ after, outline.step limit token = .ok after ∧ outline.Takes limit token after) ∨
      ∃ problem, outline.step limit token = .error problem ∧
        outline.Refuses limit token problem := by
  by_cases deep : (Phrase.opens token.kind || outline.awaitsForm) = true ∧ limit < outline.depth
  · exact .inr ⟨_, step_of_deep deep.1 deep.2, .tooDeep token deep.1 deep.2⟩
  have shallow (starts : (Phrase.opens token.kind || outline.awaitsForm) = true) :
      outline.depth ≤ limit := Nat.le_of_not_lt fun more => deep ⟨starts, more⟩
  obtain ⟨kind, span⟩ := token
  obtain ⟨marks, phrases⟩ := outline
  rw [step, if_neg (by rwa [Bool.and_eq_true, decide_eq_true_eq])]
  cases kind with
  | leftParen => exact .inl ⟨_, rfl, .leftParen span (shallow rfl)⟩
  | quote => exact .inl ⟨_, rfl, .quote span (shallow rfl)⟩
  | atom => exact .inl ⟨_, rfl, .leaf .atom span (shallow rfl)⟩
  | integer => exact .inl ⟨_, rfl, .leaf .integer span (shallow rfl)⟩
  | float => exact .inl ⟨_, rfl, .leaf .float span (shallow rfl)⟩
  | string => exact .inl ⟨_, rfl, .leaf .string span (shallow rfl)⟩
  | error => exact .inl ⟨_, rfl, .leaf .error span (shallow rfl)⟩
  | rightParen =>
    match marks with
    | .list opening items :: outer => exact .inl ⟨_, rfl, .rightParen span rfl⟩
    | .quote mark :: outer => exact .inr ⟨_, rfl, .unbalanced span (.inr ⟨rfl, shallow rfl⟩)⟩
    | [] => exact .inr ⟨_, rfl, .unbalanced span (.inl rfl)⟩
  | endOfInput =>
    match marks, phrases with
    | .list opening items :: outer, phrases => exact .inr ⟨_, rfl, .unclosed span rfl⟩
    | .quote mark :: outer, phrases => exact .inr ⟨_, rfl, .unexpectedEnd span rfl (shallow rfl)⟩
    | [], [] => exact .inr ⟨_, rfl, .empty span rfl rfl⟩
    | [], phrase :: phrases => exact .inl ⟨_, rfl, .ending span rfl (by simp)⟩

/-- What a step that goes on has done. -/
theorem takes_of_step {limit : Nat} {outline after : Outline} {token : Token}
    (took : outline.step limit token = .ok after) : outline.Takes limit token after := by
  rcases takes_or_refuses limit outline token with ⟨other, same, takes⟩ | ⟨problem, failed, -⟩
  · cases took.symm.trans same
    exact takes
  · cases took.symm.trans failed

/-- Why a step does not go on. -/
theorem refuses_of_step {limit : Nat} {outline : Outline} {token : Token} {problem : ReadError}
    (wrong : outline.step limit token = .error problem) : outline.Refuses limit token problem := by
  rcases takes_or_refuses limit outline token with ⟨after, took, -⟩ | ⟨other, same, refuses⟩
  · cases wrong.symm.trans took
  · cases wrong.symm.trans same
    exact refuses

/-- The end of the input is taken where nothing is open and something is complete. -/
theorem Takes.complete {limit : Nat} {outline after : Outline} {token : Token}
    (takes : outline.Takes limit token after) (ending : token.kind = .endOfInput) :
    outline.marks = [] ∧ outline.phrases ≠ [] ∧ after = outline := by
  cases takes with
  | leftParen | quote | rightParen => cases ending
  | leaf kind => cases kind <;> cases ending
  | ending span closed nonempty => exact ⟨closed, nonempty, rfl⟩

/-! ## Complete outlines are derivations -/

/-- The tokens of open marks and of the phrases in them, the outermost first. -/
def marksTokens : List Mark → List Token
  | [] => []
  | .list opening items :: outer =>
    marksTokens outer ++ ⟨.leftParen, opening⟩ :: Phrase.tokensAll items.reverse
  | .quote mark :: outer => marksTokens outer ++ [⟨.quote, mark⟩]

/-- An outline written out. -/
def tokens (outline : Outline) : List Token :=
  Phrase.tokensAll outline.phrases.reverse ++ marksTokens outline.marks

/-- Whether every mark and every phrase in one lies inside at most `limit` lists and quotes. -/
def ShallowMarks (limit : Nat) : List Mark → Prop
  | [] => True
  | .list _ items :: outer => outer.length ≤ limit ∧
      (∀ phrase ∈ items, phrase.Within limit (outer.length + 1)) ∧ ShallowMarks limit outer
  | .quote _ :: outer => outer.length ≤ limit ∧ ShallowMarks limit outer

/-- Whether nothing in an outline lies inside more than `limit` lists and quotes. -/
structure Shallow (limit : Nat) (outline : Outline) : Prop where
  marks : ShallowMarks limit outline.marks
  phrases : ∀ phrase ∈ outline.phrases, phrase.Within limit 0

/-- A phrase in its place is written after what was there. -/
theorem tokens_place (phrase : Phrase) (marks : List Mark) (phrases : List Phrase) :
    (place phrase marks phrases).tokens = tokens ⟨marks, phrases⟩ ++ phrase.tokens := by
  induction marks generalizing phrase with
  | nil => simp [place, tokens, marksTokens, Phrase.tokensAll_append, Phrase.tokensAll]
  | cons mark outer ih =>
    cases mark with
    | list opening items =>
      simp [place, tokens, marksTokens, Phrase.tokensAll_append, Phrase.tokensAll]
    | quote mark =>
      rw [place, ih]
      simp [tokens, marksTokens, Phrase.tokens]

/-- Nothing lies inside anything before the first token. -/
theorem shallow_empty (limit : Nat) : empty.Shallow limit :=
  ⟨trivial, fun _ member => absurd member List.not_mem_nil⟩

/-- A phrase that is not nested too deeply may be put in its place. -/
theorem shallow_place {limit : Nat} {phrase : Phrase} {marks : List Mark} {phrases : List Phrase}
    (shallow : Shallow limit ⟨marks, phrases⟩) (within : phrase.Within limit marks.length) :
    Shallow limit (place phrase marks phrases) := by
  obtain ⟨inside, complete⟩ := shallow
  induction marks generalizing phrase with
  | nil => exact ⟨trivial, List.forall_mem_cons.mpr ⟨within, complete⟩⟩
  | cons mark outer ih =>
    cases mark with
    | list opening items =>
      exact ⟨⟨inside.1, List.forall_mem_cons.mpr ⟨within, inside.2.1⟩, inside.2.2⟩, complete⟩
    | quote mark =>
      have quoted : (Phrase.quote mark phrase).Within limit outer.length := ⟨inside.1, within⟩
      exact ih quoted inside.2 complete

/-- A token that is taken is written after the others. -/
theorem Takes.tokens {limit : Nat} {outline after : Outline} {token : Token}
    (takes : outline.Takes limit token after) (proper : token.kind ≠ .endOfInput) :
    after.tokens = outline.tokens ++ [token] := by
  cases takes with
  | leftParen span shallow | quote span shallow =>
    simp [Outline.tokens, marksTokens, Phrase.tokensAll]
  | leaf kind span shallow => exact tokens_place _ _ _
  | rightParen span innermost =>
    rw [tokens_place]
    simp [Outline.tokens, marksTokens, Phrase.tokens, innermost]
  | ending => exact absurd rfl proper

/-- A token that is taken is nested no deeper than allowed. -/
theorem Takes.shallow {limit : Nat} {outline after : Outline} {token : Token}
    (takes : outline.Takes limit token after) (sound : outline.Shallow limit) :
    after.Shallow limit := by
  obtain ⟨inside, complete⟩ := sound
  cases takes with
  | leftParen span shallow => exact ⟨⟨shallow, by simp, inside⟩, complete⟩
  | quote span shallow => exact ⟨⟨shallow, inside⟩, complete⟩
  | leaf kind span shallow => exact shallow_place ⟨inside, complete⟩ shallow
  | rightParen span innermost =>
    rw [innermost] at inside
    refine shallow_place ⟨inside.2.2, complete⟩ ⟨inside.1, ?_⟩
    rw [Phrase.withinAll_iff]
    simpa using inside.2.1
  | ending => exact ⟨inside, complete⟩

/-- Tokens that are taken are written after the others, none of them nested too deeply. -/
theorem tokens_steps {limit : Nat} {outline after : Outline} {front : List Token}
    (inner : ∀ token ∈ front, token.kind ≠ .endOfInput) (sound : outline.Shallow limit)
    (taken : outline.steps limit front = .ok after) :
    after.tokens = outline.tokens ++ front ∧ after.Shallow limit := by
  induction front generalizing outline with
  | nil =>
    cases taken
    exact ⟨(List.append_nil _).symm, sound⟩
  | cons token rest ih =>
    rw [List.forall_mem_cons] at inner
    obtain ⟨between, took, others⟩ := exists_of_steps_cons taken
    have takes := takes_of_step took
    obtain ⟨written, shallow⟩ := ih inner.2 (takes.shallow sound) others
    rw [written, takes.tokens inner.1, List.append_assoc, List.singleton_append]
    exact ⟨rfl, shallow⟩

/-- A pass that reaches the end of a source has found the derivation of the source. -/
theorem derives_of_pass {limit : Nat} {source : List UInt8} {phrases : List Phrase}
    (passed : pass limit (Scanner.tokens source) = .ok phrases) :
    Phrase.Derives limit source phrases := by
  obtain ⟨front, listed, inner⟩ := Scanner.tokens_eq_append_endOfInput source
  obtain ⟨after, steps, rfl⟩ := pass_eq_ok.mp passed
  rw [listed] at steps
  obtain ⟨between, taken, last⟩ := exists_of_steps_ok steps
  obtain ⟨_, ended, nothing⟩ := exists_of_steps_cons last
  cases nothing
  obtain ⟨written, shallow⟩ := tokens_steps inner (shallow_empty limit) taken
  -- The end of the input is taken only where nothing is open, so only phrases are written out.
  obtain ⟨closed, nonempty, rfl⟩ := (takes_of_step ended).complete rfl
  refine ⟨by simpa using nonempty, ?_, ?_⟩
  · rw [listed]
    simpa [tokens, closed, marksTokens, empty, Phrase.tokensAll] using written
  · rw [Phrase.withinAll_iff]
    simpa using shallow.phrases

end Outline

end LispReader

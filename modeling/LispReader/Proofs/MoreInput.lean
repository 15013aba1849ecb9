import LispReader.Proofs.LookAhead
import LispReader.Proofs.StructuralErrors

/-!
# More input

A fault is final if no more input can mend it. A right parenthesis that closes nothing stays one,
for parentheses and apostrophes, and all tokens before them, are what they are whatever follows. A
form that is nested too deeply follows directly on a parenthesis or an apostrophe, and only its own
extent can change. Where the source merely ends too early, a few bytes complete it: those that
settle its last token, a left parenthesis if a quote waits for a form, and a right parenthesis for
each list that is open.
-/

namespace LispReader

/-! ## Parentheses and apostrophes stay -/

namespace Scanner

/-- A parenthesis or an apostrophe is a byte other than a point, whatever comes after it. -/
theorem exists_of_isMark {kind : TokenKind} {lexeme rest : List UInt8} (mark : kind.isMark = true)
    (fits : kind.Fits lexeme rest) :
    (∃ byte, lexeme = [byte] ∧ byte ≠ Byte.point) ∧ ∀ other, kind.Fits lexeme other := by
  cases kind with
  | leftParen | rightParen | quote => exact ⟨⟨_, fits, by decide⟩, fun _ => fits⟩
  | atom | integer | float | string | endOfInput | error => cases mark

/-- More input leaves a parenthesis or an apostrophe, and all tokens before it, as they are. -/
theorem exists_tokens_append {source : List UInt8} {front rest : List Token} {token : Token}
    (listed : tokens source = front ++ token :: rest) (mark : token.kind.isMark = true) :
    ∃ position behind, (cut position behind).map ReportedToken.token = rest ∧
      ∀ more, tokens (source ++ more) =
        front ++ token :: (cut position (behind ++ more)).map ReportedToken.token := by
  have proper : token.kind ≠ .endOfInput ∧ token.kind ≠ .error := by
    constructor <;> intro other <;> rw [other] at mark <;> cases mark
  rw [tokens_eq_cut] at listed
  obtain ⟨before, after, parts, rfl, shown⟩ := List.map_eq_append_iff.mp listed
  obtain ⟨reported, others, rfl, rfl, rfl⟩ := List.map_eq_cons_iff.mp shown
  obtain ⟨skipped, piece, lexeme, behind, rfl, -, fits, known, stands, settled⟩ :=
    exists_of_cut parts proper.1
  obtain ⟨⟨byte, rfl, unpointed⟩, fits_before⟩ :=
    exists_of_isMark mark (fits.of_kind? known proper.2)
  rw [cut_token _ _ (fits_before behind)] at stands
  obtain ⟨same, left⟩ := List.cons.inj stands
  refine ⟨_, behind, congrArg (List.map _) left, fun more => ?_⟩
  rw [tokens_eq_cut, settled more (by simp [unpointed]), cut_token _ _ (fits_before _),
    same, List.map_append, List.map_cons]

end Scanner

namespace Outline

/-! ## How deep outlines are -/

/-- A phrase in its place makes nothing deeper. -/
theorem depth_place_le (phrase : Phrase) (marks : List Mark) (phrases : List Phrase) :
    (place phrase marks phrases).depth ≤ marks.length := by
  induction marks generalizing phrase with
  | nil => exact Nat.le_refl 0
  | cons mark outer ih =>
    cases mark with
    | list opening items => exact Nat.le_refl _
    | quote mark => exact Nat.le_succ_of_le (ih _)

/-- Where nothing is nested too deeply, there is at most one mark more than allowed around a
form. -/
theorem Shallow.depth_le {limit : Nat} {outline : Outline} (shallow : outline.Shallow limit) :
    outline.depth ≤ limit + 1 := by
  obtain ⟨marks, phrases⟩ := outline
  match marks, shallow.marks with
  | [], _ => exact Nat.zero_le _
  | .list opening items :: outer, inside => exact Nat.succ_le_succ inside.1
  | .quote mark :: outer, inside => exact Nat.succ_le_succ inside.1

/-- A token with which a form starts is only taken where there is room for the form. -/
theorem Takes.depth_le {limit : Nat} {outline after : Outline} {token : Token}
    (takes : outline.Takes limit token after) (opens : Phrase.opens token.kind = true) :
    outline.depth ≤ limit := by
  cases takes with
  | leftParen span shallow | quote span shallow | leaf kind span shallow => exact shallow
  | rightParen | ending => cases opens

/-- Too many marks are open only directly after a left parenthesis or an apostrophe. -/
theorem exists_mark_of_deep {limit : Nat} {outline : Outline} {front : List Token}
    (taken : empty.steps limit front = .ok outline) (deep : limit < outline.depth) :
    ∃ earlier mark, front = earlier ++ [mark] ∧ mark.kind.isMark = true := by
  rcases List.eq_nil_or_concat front with rfl | ⟨earlier, token, parts⟩
  · cases taken
    cases deep
  rw [List.concat_eq_append] at parts
  subst parts
  refine ⟨earlier, token, rfl, ?_⟩
  obtain ⟨between, before, last⟩ := exists_of_steps_ok taken
  obtain ⟨_, took, nothing⟩ := exists_of_steps_cons last
  cases nothing
  cases takes_of_step took with
  | leftParen | quote | rightParen => rfl
  | leaf kind span shallow =>
    have := depth_place_le (.leaf kind span) between.marks between.phrases
    change between.marks.length ≤ limit at shallow
    omega
  | ending span closed nonempty =>
    rw [depth, closed] at deep
    cases deep

/-! ## Final faults -/

/-- A right parenthesis that closes nothing does so whatever comes after it. -/
theorem pass_append_of_unbalanced {limit : Nat} {source : List UInt8} {location : Span}
    (failed : pass limit (Scanner.tokens source) = .error (.unbalanced location))
    (more : List UInt8) :
    pass limit (Scanner.tokens (source ++ more)) = .error (.unbalanced location) := by
  obtain ⟨front, token, rest, outline, listed, taken, wrong⟩ :=
    exists_of_steps_error (pass_eq_error.mp failed)
  have mark : token.kind.isMark = true := by
    cases refuses_of_step wrong with
    | unbalanced => rfl
  obtain ⟨position, behind, -, same⟩ := Scanner.exists_tokens_append listed mark
  rw [same more, pass_eq_error]
  exact steps_of_error taken wrong _

/-- A form that is nested too deeply is so whatever comes after it. -/
theorem pass_append_of_tooDeep {limit allowed : Nat} {source : List UInt8} {location : Span}
    (failed : pass limit (Scanner.tokens source) = .error (.tooDeep location allowed))
    (more : List UInt8) :
    ∃ location', pass limit (Scanner.tokens (source ++ more)) =
      .error (.tooDeep location' allowed) := by
  obtain ⟨front, token, rest, outline, listed, taken, wrong⟩ :=
    exists_of_steps_error (pass_eq_error.mp failed)
  cases refuses_of_step wrong with
  | tooDeep _ starts deep =>
    obtain ⟨earlier, mark, rfl, isMark⟩ := exists_mark_of_deep taken deep
    rw [List.append_assoc, List.singleton_append] at listed
    obtain ⟨position, behind, left, same⟩ := Scanner.exists_tokens_append listed isMark
    obtain ⟨reported, others, parts, rfl, -⟩ := List.map_eq_cons_iff.mp left
    -- Whatever comes, a form starts with the next token or must start with it.
    obtain ⟨next, after, parts', starts'⟩ : ∃ next after,
        Scanner.cut position (behind ++ more) = next :: after ∧
          (Phrase.opens next.token.kind || outline.awaitsForm) = true := by
      cases awaits : outline.awaitsForm with
      | true =>
        obtain ⟨next, after, parts'⟩ := List.exists_cons_of_ne_nil
          (Scanner.cut_ne_nil position (behind ++ more))
        exact ⟨next, after, parts', Bool.or_true _⟩
      | false =>
        rw [awaits, Bool.or_false] at starts
        obtain ⟨next, after, parts', opens⟩ := Scanner.exists_opens_append parts starts more
        exact ⟨next, after, parts', by rw [opens, Bool.true_or]⟩
    refine ⟨next.token.span, ?_⟩
    rw [same more, parts', List.map_cons, pass_eq_error]
    rw [← List.singleton_append, ← List.append_assoc]
    exact steps_of_error taken (step_of_deep starts' deep) _

/-! ## Completing an outline -/

/-- Whether no quote waits for a form and something is open or complete. -/
structure Closable (outline : Outline) : Prop where
  answered : outline.awaitsForm = false
  nonempty : outline.marks = [] → outline.phrases ≠ []

/-- With a phrase in its place an outline is closable. -/
theorem closable_place (phrase : Phrase) (marks : List Mark) (phrases : List Phrase) :
    (place phrase marks phrases).Closable := by
  induction marks generalizing phrase with
  | nil => exact ⟨rfl, fun _ => List.cons_ne_nil _ _⟩
  | cons mark outer ih =>
    cases mark with
    | list opening items => exact ⟨rfl, fun none_open => absurd none_open (List.cons_ne_nil _ _)⟩
    | quote mark => exact ih _

/-- A right parenthesis for each open list completes a closable outline. -/
theorem Closable.exists_completion {limit : Nat} {outline : Outline} (closable : outline.Closable)
    (position : Nat) :
    ∃ count final, count ≤ outline.depth ∧
      outline.steps limit ((Scanner.cut position (List.replicate count Byte.rightParen)).map
        ReportedToken.token) = .ok final := by
  -- The induction is on the depth, because a list that is closed completes the quotes around it.
  induction measured : outline.depth using Nat.strongRecOn generalizing outline position with
  | _ size ih =>
    obtain ⟨marks, phrases⟩ := outline
    match marks with
    | [] =>
      obtain ⟨phrase, others, rfl⟩ := List.exists_cons_of_ne_nil (closable.nonempty rfl)
      refine ⟨0, ⟨[], phrase :: others⟩, Nat.zero_le _, ?_⟩
      rw [List.replicate_zero, Scanner.cut_nil]
      rfl
    | .list opening items :: outer =>
      have closed : step limit ⟨.list opening items :: outer, phrases⟩
          ⟨.rightParen, ⟨position, position + 1⟩⟩ =
        .ok (place (.list opening items.reverse ⟨position, position + 1⟩) outer phrases) := rfl
      have shallower : (place (.list opening items.reverse ⟨position, position + 1⟩) outer
          phrases).depth < size := by
        rw [← measured]
        exact Nat.lt_succ_of_le (depth_place_le _ outer phrases)
      obtain ⟨count, final, few, completed⟩ :=
        ih _ shallower (closable_place _ outer phrases) (position + 1) rfl
      refine ⟨count + 1, final, Nat.lt_of_le_of_lt few shallower, ?_⟩
      rw [List.replicate_succ, Scanner.cut_rightParen, List.map_cons, steps_cons, closed]
      exact completed
    | .quote mark :: outer => cases closable.answered

/-- Whether an outline can be completed: something is open in it or complete, no more marks are open
than can be, and there is room for a form where one must start. -/
structure Completable (limit : Nat) (outline : Outline) : Prop where
  depth_le : outline.depth ≤ limit + 1
  room : outline.awaitsForm = true → outline.depth ≤ limit
  nonempty : outline.marks = [] → outline.phrases ≠ []

/-- Right parentheses complete an outline, after a left one where a quote waits for a form. -/
theorem Completable.exists_completion {limit : Nat} {outline : Outline}
    (completable : outline.Completable limit) (position : Nat) :
    ∃ body final, body.length ≤ limit + 3 ∧
      outline.steps limit ((Scanner.cut position body).map ReportedToken.token) = .ok final := by
  have bounded := completable.depth_le
  cases awaits : outline.awaitsForm with
  | false =>
    have closable : outline.Closable := ⟨awaits, completable.nonempty⟩
    obtain ⟨count, final, few, completed⟩ := closable.exists_completion position
    refine ⟨_, final, ?_, completed⟩
    rw [List.length_replicate]
    omega
  | true =>
    have room := completable.room awaits
    have closable : Closable ⟨.list ⟨position, position + 1⟩ [] :: outline.marks,
        outline.phrases⟩ := ⟨rfl, fun none_open => absurd none_open (List.cons_ne_nil _ _)⟩
    obtain ⟨count, final, few, completed⟩ := closable.exists_completion (position + 1)
    refine ⟨Byte.leftParen :: List.replicate count Byte.rightParen, final, ?_, ?_⟩
    · have deeper : count ≤ outline.depth + 1 := few
      rw [List.length_cons, List.length_replicate]
      omega
    · have opened : outline.step limit ⟨.leftParen, ⟨position, position + 1⟩⟩ =
          .ok ⟨.list ⟨position, position + 1⟩ [] :: outline.marks, outline.phrases⟩ := by
        rw [step, if_neg (by simp [Nat.not_lt_of_le room])]
      rw [Scanner.cut_leftParen, List.map_cons, steps_cons, opened]
      exact completed

/-! ## Faults that more input mends -/

/-- A source that merely ends too early is refused at its end, with something open and room for a
form where one must start. -/
theorem Refuses.of_incomplete {limit : Nat} {outline : Outline} {token : Token}
    {problem : ReadError} (refuses : outline.Refuses limit token problem)
    (incomplete : problem.isIncomplete = true) :
    token.kind = .endOfInput ∧ outline.marks ≠ [] ∧
      (outline.awaitsForm = true → outline.depth ≤ limit) := by
  cases refuses with
  | tooDeep | unbalanced | empty => cases incomplete
  | unexpectedEnd span awaits shallow =>
    refine ⟨rfl, fun nothing => ?_, fun _ => shallow⟩
    rw [awaitsForm, nothing] at awaits
    cases awaits
  | unclosed span innermost =>
    refine ⟨rfl, by simp [innermost], fun awaits => ?_⟩
    rw [awaitsForm, innermost] at awaits
    cases awaits

/-- All tokens of a source that merely ends too early are taken but the last. -/
theorem exists_of_incomplete {limit : Nat} {source : List UInt8} {front : List Token}
    {problem : ReadError} (listed : Scanner.tokens source = front ++ [.endOfInput source.length])
    (inner : ∀ token ∈ front, token.kind ≠ .endOfInput)
    (failed : pass limit (Scanner.tokens source) = .error problem)
    (incomplete : problem.isIncomplete = true) :
    ∃ outline, empty.steps limit front = .ok outline ∧ outline.marks ≠ [] ∧
      (outline.awaitsForm = true → outline.depth ≤ limit) := by
  rw [pass_eq_error, listed] at failed
  cases taken : empty.steps limit front with
  | ok outline =>
    rw [steps_append taken, steps_singleton] at failed
    exact ⟨outline, rfl, ((refuses_of_step failed).of_incomplete incomplete).2⟩
  | error other =>
    obtain ⟨earlier, token, rest, between, rfl, before, wrong⟩ := exists_of_steps_error taken
    rw [List.append_assoc, List.cons_append, steps_of_error before wrong] at failed
    cases failed
    exact absurd ((refuses_of_step wrong).of_incomplete incomplete).1 (inner token (by simp))

/-- With its last token settled, a source that merely ends too early can be completed. -/
theorem exists_completable {limit : Nat} {front settled : List ReportedToken} {outline : Outline}
    (amends : Scanner.Amends front settled)
    (inner : ∀ token ∈ front.map ReportedToken.token, token.kind ≠ .endOfInput)
    (taken : empty.steps limit (front.map ReportedToken.token) = .ok outline)
    (started : outline.marks ≠ [])
    (shallow : outline.awaitsForm = true → outline.depth ≤ limit) :
    ∃ after, empty.steps limit (settled.map ReportedToken.token) = .ok after ∧
      after.Completable limit := by
  cases amends with
  | same =>
    have sound := (tokens_steps inner (shallow_empty limit) taken).2
    exact ⟨outline, taken, ⟨sound.depth_le, shallow, fun nothing => absurd nothing started⟩⟩
  | @string front wrong amended error string =>
    rw [List.map_append] at taken ⊢
    obtain ⟨between, before, last⟩ := exists_of_steps_ok taken
    obtain ⟨_, took, -⟩ := exists_of_steps_cons last
    have room := (takes_of_step took).depth_le (by rw [error]; rfl)
    obtain ⟨⟨kind, span⟩, findings⟩ := amended
    obtain rfl : kind = .string := string
    have closable := closable_place (.leaf .string span) between.marks between.phrases
    refine ⟨place (.leaf .string span) between.marks between.phrases, ?_, ⟨?_, ?_,
      closable.nonempty⟩⟩
    · rw [steps_append before]
      exact (steps_singleton limit between _).trans (step_leaf .string span room)
    · exact Nat.le_succ_of_le (Nat.le_trans (depth_place_le _ _ _) room)
    · intro awaits
      rw [closable.answered] at awaits
      cases awaits

/-- A source that merely ends too early is completed by a few bytes. -/
theorem exists_pass_append {limit : Nat} {source : List UInt8} {problem : ReadError}
    (failed : pass limit (Scanner.tokens source) = .error problem)
    (incomplete : problem.isIncomplete = true) :
    ∃ suffix phrases, suffix.length ≤ limit + 6 ∧
      pass limit (Scanner.tokens (source ++ suffix)) = .ok phrases := by
  obtain ⟨closer, settled, settles⟩ := Scanner.exists_settles 0 source
  obtain ⟨front, parts, amends⟩ := settles.amends
  obtain ⟨front', listed, inner⟩ := Scanner.tokens_eq_append_endOfInput source
  obtain rfl : front' = front.map ReportedToken.token := by
    have same := listed.symm.trans (Scanner.tokens_eq_cut source)
    rw [parts, List.map_append, Nat.zero_add] at same
    exact List.append_cancel_right same
  obtain ⟨outline, taken, started, shallow⟩ :=
    exists_of_incomplete listed inner failed incomplete
  obtain ⟨after, settled_steps, completable⟩ :=
    exists_completable amends inner taken started shallow
  obtain ⟨body, final, few, completed⟩ :=
    completable.exists_completion (0 + (source.length + closer.length))
  refine ⟨closer ++ body, final.phrases.reverse, ?_, pass_eq_ok.mpr ⟨final, ?_, rfl⟩⟩
  · have := settles.short
    rw [List.length_append]
    omega
  · rw [Scanner.tokens_eq_cut, settles.cut_append, List.map_append, steps_append settled_steps]
    exact completed

end Outline

namespace Session

/-- Only a source that is not too long has any other fault. -/
theorem short_of_result {session : Session} {arena : Arena} {source : List UInt8}
    {problem : ReadError} (failed : (session.read arena source).result = .error problem)
    (other : problem ≠ .sourceTooLarge source.length) : source.length < Scanner.sourceLimit := by
  rw [← Nat.not_le]
  intro long
  rw [read_of_long session arena long] at failed
  exact other (Except.error.inj failed).symm

/-- A source whose fault is in its structure has that fault whatever arena it is read into. -/
theorem pass_of_result {session : Session} {arena : Arena} {source : List UInt8}
    {problem : ReadError} (failed : (session.read arena source).result = .error problem)
    (structural : problem ≠ .sourceTooLarge source.length ∧ ∀ full, problem ≠ .arena full) :
    Outline.pass session.settings.depthLimit (Scanner.tokens source) = .error problem := by
  refine (result_eq_error (short_of_result failed structural.1) (.inr fun full stopped => ?_)).mp
    failed
  rw [failed] at stopped
  exact structural.2 full (Except.error.inj stopped)

/-- More input mends a fault exactly where the fault says so. If a right parenthesis closes nothing,
or a form is nested too deeply, every longer source has that fault. If the source merely ends too
early, there is a longer one that is read to its end. -/
theorem read_append (session : Session) (arena : Arena) (source : List UInt8) :
    let reading := session.read arena source
    (∀ location, reading.result = .error (.unbalanced location) →
      ∀ (later : Session) (arena' : Arena) (suffix : List UInt8),
        later.settings = session.settings →
        (source ++ suffix).length < Scanner.sourceLimit →
        later.HasRoom arena' (source ++ suffix) →
        (later.read arena' (source ++ suffix)).result = .error (.unbalanced location)) ∧
    (∀ location limit, reading.result = .error (.tooDeep location limit) →
      ∀ (later : Session) (arena' : Arena) (suffix : List UInt8),
        later.settings = session.settings →
        (source ++ suffix).length < Scanner.sourceLimit →
        later.HasRoom arena' (source ++ suffix) →
        ∃ location', (later.read arena' (source ++ suffix)).result =
          .error (.tooDeep location' limit)) ∧
    ∀ problem, reading.result = .error problem → problem.isIncomplete = true →
      source.length + 2048 < Scanner.sourceLimit →
      ∃ suffix, (source ++ suffix).length < Scanner.sourceLimit ∧
        ∀ (later : Session) (arena' : Arena), later.settings = session.settings →
          later.HasRoom arena' (source ++ suffix) →
          ∃ tree, (later.read arena' (source ++ suffix)).result = .ok tree := by
  intro reading
  refine ⟨?_, ?_, ?_⟩
  · intro location failed later arena' suffix same short room
    have passed := pass_of_result failed ⟨by simp, by simp⟩
    rw [result_eq_error short room, same]
    exact Outline.pass_append_of_unbalanced passed suffix
  · intro location limit failed later arena' suffix same short room
    have passed := pass_of_result failed ⟨by simp, by simp⟩
    obtain ⟨location', refused⟩ := Outline.pass_append_of_tooDeep passed suffix
    refine ⟨location', ?_⟩
    rw [result_eq_error short room, same]
    exact refused
  · intro problem failed incomplete space
    have structural : problem ≠ .sourceTooLarge source.length ∧ ∀ full, problem ≠ .arena full := by
      constructor
      · rintro rfl
        cases incomplete
      · rintro full rfl
        cases incomplete
    obtain ⟨suffix, phrases, few, passed⟩ :=
      Outline.exists_pass_append (pass_of_result failed structural) incomplete
    have bounded : session.settings.depthLimit ≤ 1024 := Nat.min_le_right _ _
    have short : (source ++ suffix).length < Scanner.sourceLimit := by
      rw [List.length_append]
      omega
    refine ⟨suffix, short, fun later arena' same room => ?_⟩
    rw [result_eq_pass short room, same, passed]
    exact ⟨_, rfl⟩

/-- After an open list and an apostrophe more input completes the source. After an apostrophe and a
right parenthesis none does. -/
theorem read_append_apostrophe :
    let opened : List UInt8 := [Byte.leftParen, Byte.apostrophe]
    let closed : List UInt8 := [Byte.apostrophe, Byte.rightParen]
    let session : Session := .create .default
    let arena : Arena := ⟨Arena.blockAddress, 256, 0, by decide, by decide, by decide⟩
    (session.read arena opened).result = .error (.unexpectedEnd ⟨2, 2⟩) ∧
      (∃ suffix, (opened ++ suffix).length < Scanner.sourceLimit ∧
        ∀ arena', session.HasRoom arena' (opened ++ suffix) →
          ∃ tree, (session.read arena' (opened ++ suffix)).result = .ok tree) ∧
      (session.read arena closed).result = .error (.unbalanced ⟨1, 2⟩) ∧
      ∀ arena' suffix, (closed ++ suffix).length < Scanner.sourceLimit →
        session.HasRoom arena' (closed ++ suffix) →
        (session.read arena' (closed ++ suffix)).result = .error (.unbalanced ⟨1, 2⟩) := by
  intro opened closed session arena
  have unfinished : (session.read arena opened).result = .error (.unexpectedEnd ⟨2, 2⟩) := by
    rw [result_eq_error (by decide) (.inl (by decide)), Scanner.tokens_eq_cut,
      Scanner.cut_leftParen, Scanner.cut_apostrophe, Scanner.cut_nil]
    rfl
  have final : (session.read arena closed).result = .error (.unbalanced ⟨1, 2⟩) := by
    rw [result_eq_error (by decide) (.inl (by decide)), Scanner.tokens_eq_cut,
      Scanner.cut_apostrophe, Scanner.cut_rightParen, Scanner.cut_nil]
    rfl
  obtain ⟨suffix, short, succeeds⟩ :=
    (read_append session arena opened).2.2 _ unfinished rfl (by decide)
  exact ⟨unfinished, ⟨suffix, short, fun arena' room => succeeds session arena' rfl room⟩, final,
    fun arena' suffix short room =>
      (read_append session arena closed).1 _ final session arena' suffix rfl short room⟩

end Session

end LispReader

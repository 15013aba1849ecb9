import LispReader.Proofs.LexicalGrammar
import LispReader.Proofs.Outline

/-!
# Structural errors

A nest does with a row of tokens what an outline does with them: it takes those that the outline
takes, and refuses the first that the outline refuses, for the same reason. What else could stop it
is its arena. Sixty-four bytes of arena for every byte that a token covers are enough: what is not
spent at once is set aside for the references to complete forms and for the quotes that wait, so
that it is there when a list or a quote is completed. So a read fails with the first fault that one
pass over the tokens meets, whatever comes after it.
-/

namespace LispReader

/-! ## Nests that follow outlines -/

/-- Whether frames stand for marks: they are the same lists, with as many items, and the same
quotes. -/
inductive Frame.Follow : List Frame → List Mark → Prop where
  | nil : Follow [] []
  | list (opening : Span) {forms : List Form} {items : List Phrase} {frames : List Frame}
      {marks : List Mark} (count : forms.length = items.length) (outer : Follow frames marks) :
    Follow (.list opening forms :: frames) (.list opening items :: marks)
  | quote (mark : Span) {frames : List Frame} {marks : List Mark} (outer : Follow frames marks) :
    Follow (.quote mark :: frames) (.quote mark :: marks)

/-- There are as many frames as marks. -/
theorem Frame.Follow.length_eq {frames : List Frame} {marks : List Mark}
    (follow : Frame.Follow frames marks) : frames.length = marks.length := by
  induction follow with
  | nil => rfl
  | list opening count outer ih => rw [List.length_cons, ih, List.length_cons]
  | quote mark outer ih => rw [List.length_cons, ih, List.length_cons]

/-- Whether a nest stands for an outline. -/
structure Nest.Follows (nest : Nest) (outline : Outline) : Prop where
  frames : Frame.Follow nest.frames outline.marks
  forms : nest.forms.length = outline.phrases.length

namespace Outline

/-- The bytes that are set aside for open marks: a reference for each complete item of a list, and
the form of each quote. -/
def marksCredit : List Mark → Nat
  | [] => 0
  | .list _ items :: outer => 8 * items.length + marksCredit outer
  | .quote _ :: outer => 39 + marksCredit outer

/-- The bytes of an arena that are set aside for what an outline will need. -/
def credit (outline : Outline) : Nat :=
  8 * outline.phrases.length + marksCredit outline.marks

end Outline

/-! ## Steps that answer -/

namespace Build

variable {α β γ δ : Type}

/-- A step from `workspace` that ends as `verdict` says, with a value that is `related` to the
answer, or is stopped by the arena because less than `credit` bytes are left in it. Of these bytes
a step that goes on leaves as many as `left` sets aside for its answer. -/
inductive Answered (workspace : Workspace) (credit : Nat) (related : α → β → Prop)
    (left : β → Nat) : EStateM.Result ReadError Workspace α → Except ReadError β → Prop where
  | ok {value : α} {answer : β} {after : Workspace} (holds : related value answer)
      (kept : after.arena.capacity = workspace.arena.capacity)
      (taken : after.arena.offset.toNat + left answer ≤ workspace.arena.offset.toNat + credit) :
    Answered workspace credit related left (.ok value after) (.ok answer)
  | error (problem : ReadError) (stopped : Workspace) :
    Answered workspace credit related left (.error problem stopped) (.error problem)
  | exhausted (problem : ArenaError) (stopped : Workspace) (verdict : Except ReadError β)
      (full : workspace.arena.capacity.toNat < workspace.arena.offset.toNat + credit) :
    Answered workspace credit related left (.error (.arena problem) stopped) verdict

/-- A step that ends as `verdict` says from wherever it starts, unless the arena stops it. -/
def Answers (step : Build α) (credit : Nat) (verdict : Except ReadError β)
    (related : α → β → Prop) (left : β → Nat) : Prop :=
  ∀ workspace, Answered workspace credit related left (step workspace) verdict

/-- A step may be counted from an earlier workspace, if what was spent since then leaves enough. -/
theorem Answered.earlier {workspace between : Workspace} {credit spare : Nat}
    {related : α → β → Prop} {left : β → Nat} {outcome : EStateM.Result ReadError Workspace α}
    {verdict : Except ReadError β}
    (answered : Answered between spare related left outcome verdict)
    (kept : between.arena.capacity = workspace.arena.capacity)
    (spent : between.arena.offset.toNat + spare ≤ workspace.arena.offset.toNat + credit) :
    Answered workspace credit related left outcome verdict := by
  cases answered with
  | ok holds kept' taken => exact .ok holds (kept'.trans kept) (Nat.le_trans taken spent)
  | error problem stopped => exact .error problem stopped
  | exhausted problem stopped verdict full =>
    rw [kept] at full
    exact .exhausted problem stopped verdict (Nat.lt_of_lt_of_le full spent)

namespace Answers

variable {related : α → β → Prop} {left : β → Nat}

/-- A value is given for nothing. -/
theorem pure {value : α} {answer : β} {credit : Nat} (holds : related value answer)
    (enough : left answer ≤ credit) :
    Answers (Pure.pure value) credit (.ok answer) related left :=
  fun _ => .ok holds rfl (Nat.add_le_add_left enough _)

/-- A problem is reported for nothing. -/
theorem throw (problem : ReadError) (credit : Nat) :
    Answers (throw problem) credit (.error problem) related left :=
  fun workspace => .error problem workspace

/-- A bound may be raised. -/
theorem weaken {step : Build α} {credit credit' : Nat} {verdict : Except ReadError β}
    (answers : Answers step credit verdict related left) (more : credit ≤ credit') :
    Answers step credit' verdict related left :=
  fun workspace => (answers workspace).earlier rfl (Nat.add_le_add_left more _)

/-- Steps that only read and pay may be made before one that answers. -/
theorem after {first : Build γ} {second : γ → Build α} {cost credit : Nat}
    {result : SymbolTable → Converted γ} {verdict : Except ReadError β}
    (reads : Converts first cost result)
    (answers : ∀ value, Answers (second value) credit verdict related left) :
    Answers (first >>= second) (cost + credit) verdict related left := by
  intro workspace
  rcases reads workspace with ⟨arena, ran, kept, taken⟩ | ⟨problem, stopped, ran, full⟩
  · rw [bind_of_ok ran]
    exact (answers _ _).earlier kept (by simp only; omega)
  · rw [bind_of_error ran]
    exact .exhausted problem stopped verdict (by omega)

/-- After a step that answers another goes on from its answer, with what is left for it. -/
theorem bind {first : Build γ} {second : γ → Build α} {credit more : Nat}
    {verdict : Except ReadError δ} {next : δ → Except ReadError β} {between : γ → δ → Prop}
    {spare : δ → Nat} (answers : Answers first credit verdict between spare)
    (goes_on : ∀ value answer, between value answer →
      Answers (second value) (spare answer + more) (next answer) related left) :
    Answers (first >>= second) (credit + more) (verdict >>= next) related left := by
  intro workspace
  have answered := answers workspace
  generalize ran : first workspace = outcome at answered
  cases answered with
  | @ok value answer after holds kept taken =>
    rw [bind_of_ok ran]
    exact (goes_on value answer holds after).earlier kept (by omega)
  | error problem stopped =>
    rw [bind_of_error ran]
    exact .error problem stopped
  | exhausted problem stopped verdict full =>
    rw [bind_of_error ran]
    exact .exhausted problem stopped _ (by omega)

end Answers

end Build

/-! ## A nest answers as its outline does -/

namespace Nest

/-- A nest is as deep as its outline. -/
theorem Follows.depth_eq {nest : Nest} {outline : Outline} (follows : nest.Follows outline) :
    nest.depth = outline.depth := follows.frames.length_eq

/-- A form is put in its place as a phrase is. What was set aside pays for the quotes that it
completes. -/
theorem answers_place (form : Form) (phrase : Phrase) {frames : List Frame} {marks : List Mark}
    {forms : List Form} {phrases : List Phrase} (follow : Frame.Follow frames marks)
    (count : forms.length = phrases.length) :
    Build.Answers (place form frames forms) (8 + Outline.credit ⟨marks, phrases⟩)
      (.ok (Outline.place phrase marks phrases)) Follows Outline.credit := by
  induction follow generalizing form phrase with
  | nil =>
    refine .pure ⟨.nil, congrArg (· + 1) count⟩ ?_
    simp only [Outline.place, Outline.credit, Outline.marksCredit, List.length_cons]
    omega
  | list opening count' outer ih =>
    refine .pure ⟨.list opening (congrArg (· + 1) count') outer, count⟩ ?_
    simp only [Outline.place, Outline.credit, Outline.marksCredit, List.length_cons]
    omega
  | quote mark outer ih =>
    refine (Build.Answers.after .reserveForm fun _ => ih _ (.quote mark phrase)).weaken ?_
    simp only [Outline.credit, Outline.marksCredit]
    omega

/-- Where a form starts or must start, a nest takes a token as the start of one. -/
theorem take_of_starts {limit : Nat} {source : List UInt8} {nest : Nest} {outline : Outline}
    {token : Token} (follows : nest.Follows outline)
    (starts : (Phrase.opens token.kind || outline.awaitsForm) = true) :
    nest.take limit source token = nest.startForm limit source token := by
  by_cases right : token.kind = .rightParen
  · rw [right, show Phrase.opens .rightParen = false from rfl, Bool.false_or] at starts
    obtain ⟨frames, forms⟩ := nest
    obtain ⟨marks, phrases⟩ := outline
    cases follows.frames with
    | nil | list => cases starts
    | quote mark outer =>
      obtain ⟨kind, span⟩ := token
      cases right
      rfl
  · exact take_of_ne right

/-- A nest takes what its outline takes and refuses what it refuses. Sixty-four bytes for every byte
of the token pay for the form that it completes and for what has to be set aside. -/
theorem answers_take {limit : Nat} (source : List UInt8) {nest : Nest} {outline : Outline}
    {token : Token} (follows : nest.Follows outline) (proper : token.kind ≠ .endOfInput)
    (visible : 0 < token.span.length) :
    Build.Answers (nest.take limit source token) (outline.credit + 64 * token.span.length)
      (outline.step limit token) Follows Outline.credit := by
  have depth := follows.depth_eq
  rcases outline.takes_or_refuses limit token with ⟨after, took, takes⟩ | ⟨problem, wrong, refuses⟩
  · rw [took]
    cases takes with
    | leftParen span shallow =>
      rw [take_leftParen source span (depth ▸ shallow)]
      refine .pure ⟨.list span rfl follows.frames, follows.forms⟩ ?_
      simp only [Outline.credit, Outline.marksCredit, List.length_nil]
      omega
    | quote span shallow =>
      rw [take_quote source span (depth ▸ shallow)]
      refine .pure ⟨.quote span follows.frames, follows.forms⟩ ?_
      simp only [Outline.credit, Outline.marksCredit] at visible ⊢
      omega
    | leaf kind span shallow =>
      rw [take_leaf source kind span (depth ▸ shallow)]
      refine (Build.Answers.after (.leaf kind span source) fun form =>
        answers_place form _ follows.frames follows.forms).weaken ?_
      change span.length + 39 + (8 + outline.credit) ≤ _
      simp only at visible ⊢
      omega
    | @rightParen span opening items outer innermost =>
      obtain ⟨frames, forms⟩ := nest
      obtain ⟨marks, phrases⟩ := outline
      cases innermost
      cases follows.frames with
      | @list _ built _ frames _ count inner =>
        refine (Build.Answers.after (.reserveReferences built.length) fun _ =>
          Build.Answers.after .reserveForm fun _ =>
            answers_place _ _ inner follows.forms).weaken ?_
        simp only [Outline.credit, Outline.marksCredit] at visible ⊢
        omega
    | ending span closed nonempty => exact absurd rfl proper
  · rw [wrong]
    cases refuses with
    | tooDeep _ starts deep =>
      rw [take_of_starts follows starts, startForm, if_pos (depth ▸ deep)]
      exact .throw _ _
    | unbalanced span unopened =>
      rcases unopened with bare | ⟨awaits, shallow⟩
      · obtain ⟨frames, forms⟩ := nest
        obtain ⟨marks, phrases⟩ := outline
        cases bare
        cases follows.frames
        exact .throw _ _
      · rw [take_of_starts follows (by rw [awaits, Bool.or_true]), startForm,
          if_neg (Nat.not_lt_of_le (depth ▸ shallow))]
        exact .throw _ _
    | unexpectedEnd | unclosed | empty => exact absurd rfl proper

/-- A nest is complete at the end of the input if its outline is, and what is wrong with it there is
what is wrong with its outline. -/
theorem answers_finish (limit : Nat) {nest : Nest} {outline : Outline} (location : Span)
    (follows : nest.Follows outline) :
    Build.Answers (nest.finish limit location) (outline.credit + 7)
      (outline.step limit ⟨.endOfInput, location⟩) (fun _ _ => True) (fun _ => 0) := by
  have depth := follows.depth_eq
  obtain ⟨frames, forms⟩ := nest
  obtain ⟨marks, phrases⟩ := outline
  cases follows.frames with
  | nil =>
    have count : forms.length = phrases.length := follows.forms
    match forms, phrases with
    | [], [] => exact .throw _ _
    | form :: forms, phrase :: phrases =>
      rw [finish_of_complete location (List.cons_ne_nil form forms), count]
      have given (value : List Form) : Build.Answers (Pure.pure value) 0
          (.ok (⟨[], phrase :: phrases⟩ : Outline)) (fun _ _ => True) (fun _ => 0) :=
        .pure trivial (Nat.le_refl 0)
      refine (Build.Answers.after (.reserveReferences _) fun _ => given _).weaken ?_
      simp only [Outline.credit, Outline.marksCredit]
      omega
  | list opening count outer => exact .throw _ _
  | quote mark outer =>
    simp only [finish, Outline.step, Phrase.opens, Outline.awaitsForm, Bool.false_or,
      Bool.true_and, decide_eq_true_eq, depth]
    split
    · exact .throw _ _
    · exact .throw _ _

/-- A nest ends a row of tokens as one pass over them does. -/
theorem answers_run (limit : Nat) (source : List UInt8) {nest : Nest} {outline : Outline}
    {front : List Token} {final : Token} (follows : nest.Follows outline)
    (inner : ∀ token ∈ front, token.kind ≠ .endOfInput ∧ 0 < token.span.length)
    (last : final.kind = .endOfInput) :
    Build.Answers (nest.run limit source (front ++ [final]))
      (outline.credit + (64 * Token.covered front + 7)) (outline.steps limit (front ++ [final]))
      (fun _ _ => True) (fun _ => 0) := by
  -- What a step leaves set aside is what the run over the other tokens starts with.
  induction front generalizing nest outline with
  | nil =>
    obtain ⟨kind, location⟩ := final
    cases last
    rw [List.nil_append, run, if_pos rfl, Outline.steps_cons]
    have answers := answers_finish limit location follows
    cases step : outline.step limit ⟨.endOfInput, location⟩ with
    | ok after =>
      rw [step] at answers
      exact answers
    | error problem =>
      rw [step] at answers
      exact answers
  | cons token front ih =>
    rw [List.forall_mem_cons] at inner
    obtain ⟨⟨proper, visible⟩, inner⟩ := inner
    rw [List.cons_append, run, if_neg proper, Outline.steps_cons]
    refine (Build.Answers.bind (answers_take source follows proper visible) fun nest outline
      follows => ih follows inner).weaken ?_
    simp only [Token.covered]
    omega

end Nest

/-! ## Reads -/

namespace Session

/-- A read of a source that is not too long gives what one pass over its tokens gives: the forms
that the phrases are read as, or the fault that the pass met. -/
theorem result_eq_pass {session : Session} {arena : Arena} {source : List UInt8}
    (short : source.length < Scanner.sourceLimit) (room : session.HasRoom arena source) :
    (session.read arena source).result =
      (Outline.pass session.settings.depthLimit (Scanner.tokens source)).map fun phrases =>
        ⟨(Phrase.convertAll source session.symbols phrases).value⟩ := by
  cases passed : Outline.pass session.settings.depthLimit (Scanner.tokens source) with
  | ok phrases =>
    have derives := Outline.derives_of_pass passed
    exact (gives_of_derives short derives room).result
  | error problem =>
    change _ = Except.error problem
    obtain ⟨front, listed, inner⟩ := Scanner.tokens_eq_append_endOfInput source
    have scanned := Scanner.tokens_eq_cut source
    have bytes := Scanner.covered_cut_le 0 source
    rw [← scanned, listed, Token.covered_append] at bytes
    have visible : ∀ token ∈ front, token.kind ≠ .endOfInput ∧ 0 < token.span.length := by
      intro token member
      have found : token ∈ Scanner.tokens source := by
        rw [listed]
        exact List.mem_append_left _ member
      rw [scanned] at found
      obtain ⟨reported, cut, rfl⟩ := List.mem_map.mp found
      exact ⟨inner _ member, Scanner.length_pos_of_mem_cut cut (inner _ member)⟩
    have steps := Outline.pass_eq_error.mp passed
    have follows : Nest.empty.Follows .empty := ⟨.nil, rfl⟩
    have answered := Nest.answers_run session.settings.depthLimit source follows visible
      (show (Token.endOfInput source.length).kind = .endOfInput from rfl)
      ⟨arena, session.symbols, []⟩
    rw [← listed, steps] at answered
    generalize ran : Nest.empty.run session.settings.depthLimit source (Scanner.tokens source)
      ⟨arena, session.symbols, []⟩ = outcome at answered
    cases answered with
    | error problem stopped => exact result_of_run short ran
    | exhausted problem stopped verdict full =>
      rcases room with enough | unstopped
      · have inside := arena.offset_le_capacity
        have left := arena.toNat_remaining
        simp only [Outline.credit, Outline.marksCredit, Outline.empty, List.length_nil] at full
        omega
      · exact absurd (result_of_run short ran) (unstopped problem)

/-- A read fails with the fault that one pass over the tokens of its source meets. -/
theorem result_eq_error {session : Session} {arena : Arena} {source : List UInt8}
    {problem : ReadError} (short : source.length < Scanner.sourceLimit)
    (room : session.HasRoom arena source) :
    (session.read arena source).result = .error problem ↔
      Outline.pass session.settings.depthLimit (Scanner.tokens source) = .error problem := by
  rw [result_eq_pass short room]
  cases Outline.pass session.settings.depthLimit (Scanner.tokens source) with
  | ok phrases => simp [Except.map]
  | error other => simp [Except.map]

/-- A read gives what one pass over the tokens of its source gives. If that is a fault, the tokens
before it are taken, the next one is refused, and every source whose tokens start with these fails
in the same way. -/
theorem read_eq_pass (session : Session) (arena : Arena) (source : List UInt8) :
    let limit := min session.settings.maxDepth.toNat 1024
    let reading := session.read arena source
    (Scanner.sourceLimit ≤ source.length →
      reading.result = .error (.sourceTooLarge source.length)) ∧
    (source.length < Scanner.sourceLimit → session.HasRoom arena source →
      reading.result =
          (Outline.pass limit (Scanner.tokens source)).map (fun phrases =>
            ⟨(Phrase.convertAll source session.symbols phrases).value⟩) ∧
        ∀ problem, reading.result = .error problem →
          (∀ location, problem = .unexpectedEnd location →
            location = ⟨source.length, source.length⟩) ∧
          ∃ front token outline, front ++ [token] <+: Scanner.tokens source ∧
            Outline.empty.steps limit front = .ok outline ∧
            outline.Refuses limit token problem ∧
            ∀ (arena' : Arena) (other : List UInt8), other.length < Scanner.sourceLimit →
              session.HasRoom arena' other → front ++ [token] <+: Scanner.tokens other →
              (session.read arena' other).result = .error problem) := by
  intro limit reading
  constructor
  · intro long
    exact congrArg Reading.result (read_of_long session arena long)
  intro short room
  refine ⟨result_eq_pass short room, fun problem failed => ?_⟩
  have passed := (result_eq_error short room).mp failed
  obtain ⟨front, token, rest, outline, listed, taken, wrong⟩ :=
    Outline.exists_of_steps_error (Outline.pass_eq_error.mp passed)
  have refuses := Outline.refuses_of_step wrong
  constructor
  · rintro location rfl
    have member : token ∈ Scanner.tokens source := by simp [listed]
    cases refuses with
    | unexpectedEnd => exact congrArg Token.span (Scanner.eq_endOfInput member rfl)
  · refine ⟨front, token, outline, ⟨rest, by simp [listed]⟩, taken, refuses, ?_⟩
    rintro arena' other short' room' ⟨others, listed'⟩
    rw [result_eq_error short' room', ← listed', List.append_assoc, List.singleton_append,
      Outline.pass_eq_error]
    exact Outline.steps_of_error taken wrong others

/-- After an apostrophe a right parenthesis closes nothing, although a list is open. -/
theorem read_eq_pass_quoted_paren :
    let source : List UInt8 := [Byte.leftParen, Byte.apostrophe, Byte.rightParen]
    let session : Session := .create .default
    let arena : Arena := ⟨Arena.blockAddress, 256, 0, by decide, by decide, by decide⟩
    source.length < Scanner.sourceLimit ∧ 64 * (source.length + 1) ≤ arena.remaining.toNat ∧
      (session.read arena source).result = .error (.unbalanced ⟨2, 3⟩) := by
  intro source session arena
  have short : source.length < Scanner.sourceLimit := by decide
  have room : 64 * (source.length + 1) ≤ arena.remaining.toNat := by decide
  have tokens : Scanner.tokens source =
      [⟨.leftParen, ⟨0, 1⟩⟩, ⟨.quote, ⟨1, 2⟩⟩, ⟨.rightParen, ⟨2, 3⟩⟩, .endOfInput 3] := by
    rw [Scanner.tokens_eq_cut, Scanner.cut_leftParen, Scanner.cut_apostrophe,
      Scanner.cut_rightParen, Scanner.cut_nil]
    rfl
  refine ⟨short, room, ?_⟩
  rw [((read_eq_pass session arena source).2 short (.inl room)).1, tokens]
  rfl

end Session

end LispReader

import LispReader.Proofs.Acceptance
import LispReader.Proofs.BatchSize
import LispReader.Proofs.Displacement
import LispReader.Proofs.MoreInput
import LispReader.Proofs.Relayout

/-!
# Reading two sources as one

After a complete source nothing is open, so a read that goes on behind a newline goes on as if it
had just begun, but that it has forms already and that its places are displaced. Two sources with a
newline between them are therefore read as the one and then the other: the second read begins with
the names that the first leaves, and ends with the forms or the fault that the whole ends with.
-/

namespace LispReader

/-! ## Outlines on top of complete phrases -/

/-- A mark with its spans changed. -/
def Mark.mapSpan (change : Span → Span) : Mark → Mark
  | .list opening items => .list (change opening) (items.map (Phrase.mapSpan change))
  | .quote mark => .quote (change mark)

namespace Outline

/-- How tokens are taken behind something complete, from how they are taken by themselves: what
comes of them is put behind what was there `before`, which is left if there is nothing in them. -/
def resume {α : Type} (change : Span → Span) (before : α) (behind : α → α) :
    Except ReadError α → Except ReadError α
  | .ok result => .ok (behind result)
  | .error .empty => .ok before
  | .error problem => .error (problem.mapSpan change)

variable {change : Span → Span} {base : List Phrase}

/-- An outline with its spans changed, behind the phrases of `base`, the last of which is first. -/
def atop (change : Span → Span) (base : List Phrase) (outline : Outline) : Outline :=
  ⟨outline.marks.map (Mark.mapSpan change), outline.phrases.map (Phrase.mapSpan change) ++ base⟩

/-- Nothing more is open behind complete phrases. -/
theorem depth_atop (outline : Outline) : (outline.atop change base).depth = outline.depth :=
  List.length_map _

/-- A form must start behind complete phrases where it must by itself. -/
theorem awaitsForm_atop (outline : Outline) :
    (outline.atop change base).awaitsForm = outline.awaitsForm := by
  obtain ⟨marks, phrases⟩ := outline
  rcases marks with _ | ⟨_ | _, outer⟩ <;> rfl

/-- A phrase has the same place behind complete phrases. -/
theorem place_atop (phrase : Phrase) (marks : List Mark) (phrases : List Phrase) :
    place (phrase.mapSpan change) (marks.map (Mark.mapSpan change))
        (phrases.map (Phrase.mapSpan change) ++ base) =
      (place phrase marks phrases).atop change base := by
  induction marks generalizing phrase with
  | nil => rfl
  | cons mark outer ih =>
    cases mark with
    | list opening items => rfl
    | quote mark => exact ih (.quote mark phrase)

/-- Behind complete phrases a token is taken as it is by itself. -/
theorem step_atop (limit : Nat) (complete : base ≠ []) (outline : Outline) (token : Token) :
    (outline.atop change base).step limit (token.mapSpan change) =
      resume change ⟨[], base⟩ (atop change base) (outline.step limit token) := by
  obtain ⟨kind, span⟩ := token
  rw [step, step, depth_atop, awaitsForm_atop, Token.mapSpan]
  by_cases deep : ((Phrase.opens kind || outline.awaitsForm) && limit < outline.depth) = true
  · rw [if_pos deep, if_pos deep]
    rfl
  · rw [if_neg deep, if_neg deep]
    obtain ⟨marks, phrases⟩ := outline
    cases kind with
    | leftParen | quote => rfl
    | atom => exact congrArg Except.ok (place_atop (.leaf .atom span) marks phrases)
    | integer => exact congrArg Except.ok (place_atop (.leaf .integer span) marks phrases)
    | float => exact congrArg Except.ok (place_atop (.leaf .float span) marks phrases)
    | string => exact congrArg Except.ok (place_atop (.leaf .string span) marks phrases)
    | error => exact congrArg Except.ok (place_atop (.leaf .error span) marks phrases)
    | rightParen =>
      rcases marks with _ | ⟨⟨opening, items⟩ | mark, outer⟩
      · rfl
      · have placed := @place_atop change base (.list opening items.reverse span) outer phrases
        rw [Phrase.mapSpan, Phrase.mapSpans_eq_map, List.map_reverse] at placed
        exact congrArg Except.ok placed
      · rfl
    | endOfInput =>
      rcases marks with _ | ⟨⟨opening, items⟩ | mark, outer⟩
      · rcases phrases with _ | ⟨phrase, phrases⟩
        · simp [atop, resume, complete]
        · simp [atop, resume]
      · rfl
      · rfl

/-- Only at the end of the input nothing can be found. -/
theorem ne_empty_of_step {limit : Nat} {outline : Outline} {token : Token} {problem : ReadError}
    (proper : token.kind ≠ .endOfInput) (wrong : outline.step limit token = .error problem) :
    problem ≠ .empty := by
  rintro rfl
  cases refuses_of_step wrong with
  | empty => exact proper rfl

/-- Behind complete phrases tokens up to the end of the input are taken as they are by
themselves. -/
theorem steps_atop (limit : Nat) (complete : base ≠ []) {front : List Token}
    (inner : ∀ token ∈ front, token.kind ≠ .endOfInput) (final : Token) (outline : Outline) :
    (outline.atop change base).steps limit ((front ++ [final]).map (Token.mapSpan change)) =
      resume change ⟨[], base⟩ (atop change base) (outline.steps limit (front ++ [final])) := by
  induction front generalizing outline with
  | nil =>
    rw [List.nil_append, List.map_singleton, steps_singleton, steps_singleton]
    exact step_atop limit complete outline final
  | cons token front ih =>
    rw [List.forall_mem_cons] at inner
    rw [List.cons_append, List.map_cons, steps_cons, steps_cons, step_atop limit complete]
    cases took : outline.step limit token with
    | ok between => exact ih inner.2 between
    | error problem =>
      have proper := ne_empty_of_step inner.1 took
      cases problem with
      | empty => exact absurd rfl proper
      | _ => rfl

/-- What a complete pass has taken before the end of the input. -/
theorem steps_of_pass {limit : Nat} {front : List Token} {final : Token} {phrases : List Phrase}
    (last : final.kind = .endOfInput) (passed : pass limit (front ++ [final]) = .ok phrases) :
    empty.steps limit front = .ok ⟨[], phrases.reverse⟩ ∧ phrases ≠ [] := by
  obtain ⟨after, steps, rfl⟩ := pass_eq_ok.mp passed
  obtain ⟨between, taken, ended⟩ := exists_of_steps_ok steps
  rw [steps_singleton] at ended
  obtain ⟨closed, nonempty, rfl⟩ := (takes_of_step ended).complete last
  refine ⟨?_, by simpa using nonempty⟩
  rw [taken, List.reverse_reverse, ← closed]

/-- A pass that goes on behind complete phrases ends as the pass by itself does. -/
theorem pass_append {limit : Nat} {front : List Token} {phrases : List Phrase}
    (taken : empty.steps limit front = .ok ⟨[], phrases.reverse⟩) (nonempty : phrases ≠ [])
    {others : List Token} (inner : ∀ token ∈ others, token.kind ≠ .endOfInput) (final : Token) :
    pass limit (front ++ (others ++ [final]).map (Token.mapSpan change)) =
      resume change phrases (fun behind => phrases ++ behind.map (Phrase.mapSpan change))
        (pass limit (others ++ [final])) := by
  have complete : phrases.reverse ≠ [] := by simpa using nonempty
  have onward := @steps_atop change phrases.reverse limit complete others inner final empty
  rw [pass, pass, steps_append taken]
  change Except.map _ ((empty.atop change phrases.reverse).steps limit _) = _
  rw [onward]
  cases empty.steps limit (others ++ [final]) with
  | ok after => simp [Except.map, resume, atop]
  | error problem =>
    cases problem with
    | empty => simp [Except.map, resume]
    | _ => rfl

/-- A pass over two sources with a newline between them ends as the pass over the second does, put
behind the phrases of the first. -/
theorem pass_append_newline {limit : Nat} {source : List UInt8} {phrases : List Phrase}
    (passed : pass limit (Scanner.tokens source) = .ok phrases)
    (closed : ∀ finding ∈ Scanner.findings source, finding.cause ≠ .unterminatedString)
    (more : List UInt8) :
    pass limit (Scanner.tokens (source ++ Byte.newline :: more)) =
      resume (Span.displace (source.length + 1)) phrases
        (fun behind => phrases ++ behind.map (Phrase.mapSpan (Span.displace (source.length + 1))))
        (pass limit (Scanner.tokens more)) := by
  obtain ⟨front, listed, further⟩ := Scanner.tokens_append_newline closed
  obtain ⟨others, listed', inner⟩ := Scanner.tokens_eq_append_endOfInput more
  rw [listed] at passed
  obtain ⟨taken, nonempty⟩ := steps_of_pass rfl passed
  rw [(further more).1, listed']
  exact pass_append taken nonempty inner _

end Outline

/-! ## Forms of two sources -/

namespace Phrase

/-- The tokens of the phrases that a source derives lie inside the source. -/
theorem Derives.stop_le_length {limit : Nat} {source : List UInt8} {phrases : List Phrase}
    (derives : Derives limit source phrases) :
    ∀ token ∈ tokensAll phrases, token.span.stop ≤ source.length := by
  intro token member
  have ordered := (Scanner.scanned_tokens source).ordered.2
  rw [← derives.tokens, List.pairwise_append] at ordered
  exact ordered.2.2 token member _ (List.mem_singleton_self _)

/-- The phrases of two sources with a newline between them are read as those of the first, and then
as those of the second, which are displaced. -/
theorem convertAll_append_newline {limit : Nat} {source : List UInt8} {phrases : List Phrase}
    (derives : Derives limit source phrases) (more : List UInt8) (symbols : SymbolTable)
    (others : List Phrase) :
    let displace := Span.displace (source.length + 1)
    let first := convertAll source symbols phrases
    let second := convertAll more first.symbols others
    convertAll (source ++ Byte.newline :: more) symbols (phrases ++ others.map (mapSpan displace)) =
      ⟨first.value ++ second.value.map (Form.mapSpan displace), second.symbols,
        first.findings ++ second.findings.map (Finding.mapSpan displace)⟩ := by
  intro displace first second
  have behind := convertAll_displace (source ++ [Byte.newline]) more first.symbols others
  rw [List.length_append, List.append_assoc] at behind
  rw [convertAll_append, convertAll_append_left symbols derives.stop_le_length]
  exact congrArg (fun back : Converted (List Form) =>
    (⟨first.value ++ back.value, back.symbols, first.findings ++ back.findings⟩ :
      Converted (List Form))) behind

end Phrase

namespace Session

/-- A source that is read to its end is read as the phrases that a pass over its tokens finds. -/
theorem exists_pass_of_read {session : Session} {arena : Arena} {source : List UInt8} {tree : Tree}
    (succeeds : (session.read arena source).result = .ok tree) :
    ∃ phrases, Outline.pass session.settings.depthLimit (Scanner.tokens source) = .ok phrases ∧
      Phrase.Derives session.settings.depthLimit source phrases ∧
      tree = ⟨(Phrase.convertAll source session.symbols phrases).value⟩ ∧
      (session.read arena source).Gives session source
        (Phrase.convertAll source session.symbols phrases) := by
  have short := (derives_of_read succeeds).1
  have room : session.HasRoom arena source := .inr fun problem failed => by
    cases succeeds.symm.trans failed
  have result := result_eq_pass short room
  cases passed : Outline.pass session.settings.depthLimit (Scanner.tokens source) with
  | error problem =>
    rw [passed, succeeds] at result
    cases result
  | ok phrases =>
    rw [passed, succeeds] at result
    have derives := Outline.derives_of_pass passed
    exact ⟨phrases, rfl, derives, Except.ok.inj result, gives_of_derives short derives room⟩

/-- Two sources with a newline between them are read as the one and then the other, if the first is
read to its end and no string is open there. If the second is read to its end too, the whole gives
the forms of both, the places of the second displaced, the same names, and what was reported of
both, though perhaps in another order. If the second has a fault with a place in it, the whole has
the same fault at the displaced place, and if there is no form in the second, the whole gives the
forms of the first. -/
theorem read_append_newline (session : Session) (arena arena' arena'' : Arena)
    (source more : List UInt8) (tree : Tree)
    (short : source.length + 1 + more.length < Scanner.sourceLimit)
    (succeeds : (session.read arena source).result = .ok tree)
    (closed : ∀ finding ∈ ((Scanner.start source).scan (.blank (source.length + 1))).findings,
      finding.cause ≠ .unterminatedString)
    (room : session.HasRoom arena'' (source ++ Byte.newline :: more)) :
    let displace := Span.displace (source.length + 1)
    let first := session.read arena source
    let second := first.session.read arena' more
    let whole := session.read arena'' (source ++ Byte.newline :: more)
    (∀ tree', second.result = .ok tree' →
      whole.result = .ok ⟨tree.forms ++ tree'.forms.map (Form.mapSpan displace)⟩ ∧
        whole.session.symbols = second.session.symbols ∧
        ∃ reported reported' reported'',
          first.session.diagnostics = session.diagnostics ++ reported ∧
          second.session.diagnostics = first.session.diagnostics ++ reported' ∧
          whole.session.diagnostics = session.diagnostics ++ reported'' ∧
          reported''.Perm (reported ++ reported'.map (Diagnostic.mapSpan displace))) ∧
    (∀ problem location, second.result = .error problem → problem.span? = some location →
      whole.result = .error (problem.mapSpan displace)) ∧
    (second.result = .error .empty → whole.result = .ok tree) := by
  intro displace first second whole
  rw [← Scanner.findings_eq_scan] at closed
  obtain ⟨phrases, passed, derives, rfl, gives⟩ := exists_pass_of_read succeeds
  have onward := Outline.pass_append_newline passed closed more
  have settings : first.session.settings = session.settings := gives.settings
  have symbols : first.session.symbols = _ := gives.symbols
  have short' : (source ++ Byte.newline :: more).length < Scanner.sourceLimit := by
    rw [List.length_append, List.length_cons]
    omega
  have result := result_eq_pass short' room
  refine ⟨fun tree' succeeds' => ?_, fun problem location failed located => ?_, fun failed => ?_⟩
  · obtain ⟨others, passed', -, rfl, gives'⟩ := exists_pass_of_read succeeds'
    rw [settings] at passed'
    rw [passed'] at onward
    have whole_gives := gives_of_derives short' (Outline.derives_of_pass onward) room
    rw [Phrase.convertAll_append_newline derives, ← symbols] at whole_gives
    refine ⟨whole_gives.result, whole_gives.symbols.trans gives'.symbols.symm, ?_⟩
    obtain ⟨findings, reported, lexical, others⟩ := gives.diagnostics
    obtain ⟨findings', reported', lexical', others'⟩ := gives'.diagnostics
    obtain ⟨findings'', reported'', lexical'', others''⟩ := whole_gives.diagnostics
    refine ⟨_, _, _, reported, reported', reported'', ?_⟩
    rw [← Finding.map_diagnostic_mapSpan, ← List.map_append]
    apply List.Perm.map
    apply Finding.perm_of_filter
    · obtain ⟨_, _, further⟩ := Scanner.tokens_append_newline closed
      rw [lexical'', (further more).2, List.filter_append, lexical, List.filter_map, ← lexical']
      rfl
    · rw [others'', List.filter_append, others, List.filter_map, ← others']
      rfl
  · have structural : problem ≠ .sourceTooLarge more.length ∧ ∀ full, problem ≠ .arena full := by
      constructor
      · rintro rfl
        cases located
      · rintro full rfl
        cases located
    have passed' := pass_of_result failed structural
    rw [settings] at passed'
    rw [result, onward, passed']
    cases problem with
    | empty => cases located
    | _ => rfl
  · have passed' := pass_of_result failed ⟨by simp, by simp⟩
    rw [settings] at passed'
    rw [result, onward, passed']
    have alone := Phrase.convertAll_append_left session.symbols derives.stop_le_length
      (Byte.newline :: more)
    exact congrArg (fun forms => Except.ok (Tree.mk forms)) (congrArg Converted.value alone)

/-- A source that ends in a comment: the newline ends the comment, and a quoted list behind it is
read, or a right parenthesis found to close nothing, where they are in the whole. -/
theorem read_append_newline_comment :
    let source : List UInt8 := [Byte.leftParen, Byte.rightParen, Byte.semicolon]
    let quoted : List UInt8 := [Byte.apostrophe, Byte.leftParen, Byte.rightParen]
    let session : Session := .create .default
    let arena : Arena := ⟨Arena.blockAddress, 512, 0, by decide, by decide, by decide⟩
    (session.read arena (source ++ Byte.newline :: quoted)).result =
        .ok ⟨[.list ⟨0, 2⟩ [], .quote ⟨4, 7⟩ (.list ⟨5, 7⟩ [])]⟩ ∧
      (session.read arena (source ++ Byte.newline :: [Byte.rightParen])).result =
        .error (.unbalanced ⟨4, 5⟩) := by
  intro source quoted session arena
  have cut : Scanner.cut 0 source = [⟨⟨.leftParen, ⟨0, 1⟩⟩, []⟩, ⟨⟨.rightParen, ⟨1, 2⟩⟩, []⟩,
      ⟨.endOfInput 3, []⟩] := by
    rw [Scanner.cut_leftParen, Scanner.cut_rightParen]
    have comment := @Scanner.cut_comment [] [] 2 rfl fun _ first => by cases first
    rw [List.append_nil, Scanner.cut_nil] at comment
    rw [comment]
    rfl
  have succeeds : (session.read arena source).result = .ok ⟨[.list ⟨0, 2⟩ []]⟩ := by
    rw [result_eq_pass (by decide) (.inl (by decide)), Scanner.tokens_eq_cut, cut]
    rfl
  have short : source.length < Scanner.sourceLimit := by decide
  have settings := (read_follows session arena short).settings
  have closed : ∀ finding ∈ ((Scanner.start source).scan (.blank (source.length + 1))).findings,
      finding.cause ≠ .unterminatedString := by
    rw [← Scanner.findings_eq_scan, Scanner.findings, cut]
    exact fun finding found => absurd found List.not_mem_nil
  have list : ((session.read arena source).session.read arena quoted).result =
      .ok ⟨[.quote ⟨0, 3⟩ (.list ⟨1, 3⟩ [])]⟩ := by
    rw [result_eq_pass (by decide) (.inl (by decide)), settings, Scanner.tokens_eq_cut,
      Scanner.cut_apostrophe, Scanner.cut_leftParen, Scanner.cut_rightParen, Scanner.cut_nil]
    rfl
  have paren : ((session.read arena source).session.read arena [Byte.rightParen]).result =
      .error (.unbalanced ⟨0, 1⟩) := by
    rw [result_eq_pass (by decide) (.inl (by decide)), settings, Scanner.tokens_eq_cut,
      Scanner.cut_rightParen, Scanner.cut_nil]
    rfl
  obtain ⟨both, -, -⟩ := read_append_newline session arena arena arena source quoted _ (by decide)
    succeeds closed (.inl (by decide))
  obtain ⟨-, fault, -⟩ := read_append_newline session arena arena arena source [Byte.rightParen] _
    (by decide) succeeds closed (.inl (by decide))
  exact ⟨(both _ list).1, fault _ _ paren rfl⟩

end Session

end LispReader

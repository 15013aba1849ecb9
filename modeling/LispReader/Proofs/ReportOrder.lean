import LispReader.Proofs.FeedCursor
import LispReader.Proofs.Interning

/-!
# In which order a read reports

Two sources of findings meet in a read. The scanner finds malformed tokens a batch ahead of the
nest, and a leaf is found to have no value when its token is taken. So what is known about both
follows from the number of tokens taken: it says how many batches have been scanned, and a leaf
comes behind the batch that it is in and in front of the next. This holds wherever the read stops,
because findings are kept when it fails.
-/

namespace LispReader

/-! ## What is found about a token -/

namespace Token

/-- What is found about a token when it is made into a form: the name of an atom may not be text,
and an integer may be out of range. -/
def conversions (source : List UInt8) (token : Token) : List Finding :=
  match token.kind with
  | .atom =>
    match Text.ofBytes? (token.lexeme source) with
    | some _ => []
    | none => [⟨.symbolNotUtf8, token.span⟩]
  | .integer =>
    match Numeral.readInt64? (token.lexeme source) with
    | some _ => []
    | none => [⟨.integerOutOfRange, token.span⟩]
  | .leftParen | .rightParen | .quote | .float | .string | .endOfInput | .error => []

/-- What is found about a token concerns the bytes that it covers, and is not found by the
scanner. -/
theorem of_mem_conversions {source : List UInt8} {token : Token} {finding : Finding}
    (member : finding ∈ token.conversions source) :
    finding.span = token.span ∧ finding.cause.isLexical = false := by
  obtain ⟨kind, span⟩ := token
  cases kind with
  | atom | integer =>
    simp only [conversions] at member
    split at member
    · cases member
    · rw [List.mem_singleton.mp member]
      exact ⟨rfl, rfl⟩
  | leftParen | rightParen | quote | float | string | endOfInput | error => cases member

/-- A token of a source always has a value if it is a float. -/
theorem refusals_eq_conversions {source : List UInt8} {token : Token}
    (listed : token ∈ Scanner.tokens source) :
    token.refusals source = token.conversions source := by
  have admits := (Scanner.scanned_tokens source).admits token listed
  obtain ⟨kind, span⟩ := token
  cases kind with
  | float =>
    obtain ⟨number, stands⟩ := (admits .float rfl).exists_read?
    simp only [refusals, stands, conversions]
  | leftParen | rightParen | quote | atom | integer | string | endOfInput | error => rfl

end Token

/-! ## Tokens taken -/

namespace TokenFeed

/-- What comes of a drive, with the tokens that were taken for it. -/
structure Drive where
  taken : List Token
  outcome : EStateM.Result ReadError Workspace (List Form)

/-- Drives the tokens of a feed through a nest and keeps a record of those that are taken, the last
of which is the one that ends the drive. -/
def track (limit : Nat) (source : List UInt8) (feed : TokenFeed) (nest : Nest)
    (workspace : Workspace) : Drive :=
  let delivery := feed.next
  let reported := { workspace with findings := workspace.findings ++ delivery.findings }
  match _ : delivery.token with
  | none => ⟨[], nest.finish limit (Token.endOfInput source.length).span reported⟩
  | some token =>
    if token.kind = .endOfInput then ⟨[token], nest.finish limit token.span reported⟩
    else
      match nest.take limit source token reported with
      | .error problem stopped => ⟨[token], .error problem stopped⟩
      | .ok nest after =>
        let rest := delivery.feed.track limit source nest after
        ⟨token :: rest.taken, rest.outcome⟩
  termination_by feed.pending
  decreasing_by exact pending_next (by assumption)

/-- The record does not change what comes of a drive. -/
theorem outcome_track (limit : Nat) (source : List UInt8) (feed : TokenFeed) (nest : Nest)
    (workspace : Workspace) :
    (feed.track limit source nest workspace).outcome = feed.drive limit source nest workspace := by
  fun_induction track limit source feed nest workspace with
  | case1 feed nest workspace delivery reported none_left =>
    rw [drive_of_none none_left]
    rfl
  | case2 feed nest workspace delivery reported token handed last =>
    rw [drive_of_some handed, if_pos last]
    rfl
  | case3 feed nest workspace delivery reported token handed inner problem stopped took =>
    rw [drive_of_some handed, if_neg inner]
    exact (Build.bind_of_error took _).symm
  | case4 feed nest workspace delivery reported token handed inner between after took rest ih =>
    rw [drive_of_some handed, if_neg inner]
    exact ih.trans (Build.bind_of_ok took _).symm

/-- A token that is handed out is taken, and unless it ends the drive the others follow. -/
theorem track_of_some {limit : Nat} {source : List UInt8} {feed : TokenFeed} {token : Token}
    (handed : feed.next.token = some token) (nest : Nest) (workspace : Workspace) :
    feed.track limit source nest workspace =
      let reported := { workspace with findings := workspace.findings ++ feed.next.findings }
      if token.kind = .endOfInput then ⟨[token], nest.finish limit token.span reported⟩
      else
        match nest.take limit source token reported with
        | .error problem stopped => ⟨[token], .error problem stopped⟩
        | .ok nest after =>
          let rest := feed.next.feed.track limit source nest after
          ⟨token :: rest.taken, rest.outcome⟩ := by
  rw [track]
  split
  · rename_i nothing
    rw [handed] at nothing
    cases nothing
  · rename_i other same
    rw [handed] at same
    cases same
    rfl

/-! ## Order of findings -/

/-- The findings of the first tokens of a source are the first ones of a scan of all of it, as many
as there are error tokens among those tokens. -/
theorem findingsOf_eq_take (source : List UInt8) (count : Nat) :
    let first := (Scanner.tokens source).take (min (Scanner.tokens source).length count)
    findingsOf source count =
      ((Scanner.start source).scan (.blank (source.length + 1))).findings.take
        (first.countP (·.kind = .error)) ∧
      (findingsOf source count).map Finding.span =
        (first.filter (·.kind = .error)).map Token.span := by
  intro first
  have written : ((Scanner.cut 0 source).take count).map ReportedToken.token = first := by
    rw [List.map_take, ← Scanner.tokens_eq_cut, List.take_eq_take_min, Nat.min_comm]
  rw [findingsOf, ← written]
  refine ⟨?_, Scanner.span_flatMap_findings _ fun _ member => List.mem_of_mem_take member⟩
  rw [Scanner.flatMap_findings_take, Scanner.findings_scan_blank]

/-- Findings of a read of `source` with batches of `size` that has taken `taken` tokens and made the
tokens `converted` into forms: those of the scanner are about the batches that it took, the others
are about the converted tokens, and each of these comes behind the batch that its token is in and in
front of the next. -/
structure Told (source : List UInt8) (size taken : Nat) (converted : List Token)
    (findings : List Finding) : Prop where
  lexical : findings.filter (·.cause.isLexical) = findingsOf source (inBatches size taken)
  others : findings.filter (!·.cause.isLexical) = converted.flatMap (Token.conversions source)
  placed : ∀ earlier token later, converted = earlier ++ token :: later →
    ∃ before after, findings = before ++ token.conversions source ++ after ∧
      before.filter (·.cause.isLexical) =
        findingsOf source (inBatches size (earlier.length + 1)) ∧
      before.filter (!·.cause.isLexical) = earlier.flatMap (Token.conversions source)

/-- Every finding of a read is about an error token of its source, or is made when a token is
converted. -/
theorem Told.exists_about {source : List UInt8} {size taken : Nat} {converted : List Token}
    {findings : List Finding} (told : Told source size taken converted findings) {finding : Finding}
    (member : finding ∈ findings) :
    (∃ token ∈ Scanner.tokens source, token.kind = .error ∧ finding.span = token.span) ∨
      ∃ token ∈ converted, finding ∈ token.conversions source := by
  by_cases lexical : finding.cause.isLexical = true
  · have about : finding ∈ findings.filter (·.cause.isLexical) :=
      List.mem_filter.mpr ⟨member, lexical⟩
    rw [told.lexical] at about
    have spanned : finding.span ∈ List.map Finding.span _ := List.mem_map_of_mem about
    rw [(findingsOf_eq_take source _).2] at spanned
    obtain ⟨token, listed, same⟩ := List.mem_map.mp spanned
    obtain ⟨inside, error⟩ := List.mem_filter.mp listed
    exact .inl ⟨token, List.mem_of_mem_take inside, decide_eq_true_iff.mp error, same.symm⟩
  · have about : finding ∈ findings.filter (!·.cause.isLexical) :=
      List.mem_filter.mpr ⟨member, by simpa using lexical⟩
    rw [told.others] at about
    exact .inr (List.mem_flatMap.mp about)

/-- A feed behind some tokens hands out the next one, and the batch scanned for it, if one was,
gives lexical findings. -/
theorem Stands.next_of_listed {feed : TokenFeed} {source : List UInt8} {size : Nat}
    {earlier later : List Token} {token : Token} (positive : 0 < size)
    (stands : feed.Stands source size earlier.length (inBatches size earlier.length))
    (listed : Scanner.tokens source = earlier ++ token :: later) :
    feed.next.token = some token ∧
      feed.next.feed.Stands source size (earlier ++ [token]).length
        (inBatches size (earlier ++ [token]).length) ∧
      findingsOf source (inBatches size earlier.length) ++ feed.next.findings =
        findingsOf source (inBatches size (earlier.length + 1)) ∧
      ∀ finding ∈ feed.next.findings, finding.cause.isLexical = true := by
  obtain ⟨handed, after, found⟩ := stands.meet positive (Nat.le_refl _) (Nat.le_succ _) .next
  have grown : (earlier ++ [token]).length = earlier.length + 1 := List.length_append
  rw [listed, List.getElem?_append_right (Nat.le_refl _), Nat.sub_self] at handed
  rw [grown]
  refine ⟨handed, after, found, fun finding member => ?_⟩
  have about : finding ∈ findingsOf source (inBatches size (earlier.length + 1)) :=
    found ▸ List.mem_append_right _ member
  obtain ⟨reported, cut, told⟩ := List.mem_flatMap.mp about
  exact isLexical_of_mem_cut (List.mem_of_mem_take cut) finding told

namespace Told

variable {source : List UInt8} {size taken : Nat} {converted : List Token}
  {findings : List Finding}

/-- Nothing has been found before the first token. -/
theorem start (source : List UInt8) {size : Nat} (positive : 0 < size) :
    Told source size 0 [] [] := by
  refine ⟨?_, rfl, fun earlier token later parts => ?_⟩
  · rw [inBatches_zero positive]
    rfl
  · cases earlier <;> cases parts

/-- One more token has been taken, with which a batch may have been scanned. -/
theorem taking (told : Told source size taken converted findings) {scanned : List Finding}
    (found : findingsOf source (inBatches size taken) ++ scanned =
      findingsOf source (inBatches size (taken + 1)))
    (lexical : ∀ finding ∈ scanned, finding.cause.isLexical = true) :
    Told source size (taken + 1) converted (findings ++ scanned) := by
  obtain ⟨all, none_left⟩ := Finding.filter_of_isLexical lexical
  refine ⟨?_, ?_, fun earlier token later parts => ?_⟩
  · rw [List.filter_append, told.lexical, all, if_pos rfl, found]
  · rw [List.filter_append, told.others, none_left, if_pos rfl, List.append_nil]
  · obtain ⟨before, after, rfl, sides⟩ := told.placed earlier token later parts
    exact ⟨before, after ++ scanned, List.append_assoc _ _ _, sides⟩

/-- The token that has been taken last has been made into a form. -/
theorem converting (told : Told source size (converted.length + 1) converted findings)
    (token : Token) :
    Told source size (converted.length + 1) (converted ++ [token])
      (findings ++ token.conversions source) := by
  have conversions : ∀ finding ∈ token.conversions source, finding.cause.isLexical = false :=
    fun _ found => (Token.of_mem_conversions found).2
  obtain ⟨none_left, all⟩ := Finding.filter_of_isLexical conversions
  refine ⟨?_, ?_, fun earlier other later parts => ?_⟩
  · rw [List.filter_append, told.lexical, none_left, if_neg Bool.false_ne_true, List.append_nil]
  · rw [List.filter_append, told.others, all, if_neg Bool.false_ne_true, List.flatMap_append,
      List.flatMap_singleton]
  · rcases List.eq_nil_or_concat later with rfl | ⟨later, final, rfl⟩
    · obtain ⟨rfl, same⟩ := List.append_inj' parts rfl
      cases same
      exact ⟨findings, [], (List.append_nil _).symm, told.lexical, told.others⟩
    · rw [List.concat_eq_append, ← List.cons_append, ← List.append_assoc] at parts
      obtain ⟨parts, -⟩ := List.append_inj' parts rfl
      obtain ⟨before, after, rfl, sides⟩ := told.placed earlier other later parts
      exact ⟨before, after ++ token.conversions source, List.append_assoc _ _ _, sides⟩

end Told

/-- What a drive has to show for the tokens `left` if the tokens `converted` of them were made into
forms, after the tokens `earlier` had been: its findings in their order, and at most one token taken
that was not made into a form, because it is the end of the input or lies too deep. -/
structure Drive.Accounts (drive : Drive) (source : List UInt8) (limit size : Nat)
    (earlier left converted : List Token) : Prop where
  told : Told source size (earlier.length + drive.taken.length) (earlier ++ converted)
    (Build.after drive.outcome).findings
  inside : drive.taken <+: left
  rest : drive.taken = converted ∨ ∃ token, drive.taken = converted ++ [token] ∧
    (token.kind = .endOfInput ∨
      ∃ stopped, drive.outcome = .error (.tooDeep token.span limit) stopped)

/-- A token that is made into a form comes in front of what the rest of the drive accounts for. -/
theorem Drive.Accounts.cons {source : List UInt8} {limit size : Nat} {drive : Drive}
    {earlier left converted : List Token} {token : Token}
    (accounts : drive.Accounts source limit size (earlier ++ [token]) left converted) :
    Drive.Accounts ⟨token :: drive.taken, drive.outcome⟩ source limit size earlier (token :: left)
      (token :: converted) := by
  refine ⟨?_, (List.prefix_cons_inj token).mpr accounts.inside, ?_⟩
  · have told := accounts.told
    rw [List.length_append, List.append_assoc, Nat.add_assoc, Nat.add_comm [token].length] at told
    exact told
  · rcases accounts.rest with all | ⟨final, one_more, why⟩
    · exact .inl (congrArg (List.cons token) all)
    · exact .inr ⟨final, congrArg (List.cons token) one_more, why⟩

/-- A drive accounts for the tokens that it takes. -/
theorem accounts_track {limit size : Nat} {source : List UInt8} {front : List Token}
    {final : Token} (positive : 0 < size) (inner : ∀ token ∈ front, token.kind ≠ .endOfInput)
    (last : final.kind = .endOfInput) {feed : TokenFeed} {nest : Nest} {workspace : Workspace}
    {earlier : List Token} (listed : Scanner.tokens source = earlier ++ (front ++ [final]))
    (stands : feed.Stands source size earlier.length (inBatches size earlier.length))
    (told : Told source size earlier.length earlier workspace.findings) :
    (feed.track limit source nest workspace).Accounts source limit size earlier (front ++ [final])
      (nest.converted limit source workspace.quiet front) := by
  induction front generalizing feed nest workspace earlier with
  | nil =>
    obtain ⟨handed, -, found, lexical⟩ := stands.next_of_listed positive listed
    rw [track_of_some handed]
    simp only [if_pos last]
    refine ⟨?_, List.prefix_rfl, .inr ⟨final, rfl, .inl last⟩⟩
    rw [(Nest.after_finish limit nest final.span _).2, Nest.converted, List.append_nil]
    exact told.taking found lexical
  | cons token front ih =>
    rw [List.forall_mem_cons] at inner
    obtain ⟨handed, after, found, lexical⟩ := stands.next_of_listed positive listed
    have taken := told.taking found lexical
    obtain ⟨reported, ran, quiet, -⟩ := Build.report_of_lexical workspace lexical
    have become : { workspace with findings := workspace.findings ++ feed.next.findings } =
        reported := by
      cases ran
      rfl
    rw [track_of_some handed]
    rw [show workspace.findings ++ feed.next.findings = reported.findings from
      congrArg Workspace.findings become] at taken
    simp only [if_neg inner.1, become]
    -- The converted tokens are counted in a run without the findings of the scanner, which ends as
    -- this one does.
    obtain ⟨same, -⟩ := Build.IgnoresLexical.take limit source nest token reported
    rw [quiet] at same
    have member : token ∈ Scanner.tokens source :=
      listed ▸ List.mem_append_right _ List.mem_cons_self
    have refusals := Token.refusals_eq_conversions member
    rcases Build.Does.take limit source nest token with deep | does
    · rw [deep] at same
      rw [Nest.converted, deep, same]
      refine ⟨?_, ⟨front ++ [final], rfl⟩, .inr ⟨token, rfl, .inr ⟨reported, rfl⟩⟩⟩
      exact (List.append_nil earlier).symm ▸ taken
    · have converting := taken.converting token
      rw [← refusals, ← does.finds reported] at converting
      cases took : nest.take limit source token reported with
      | error problem stopped =>
        have proper := (does.interns reported).2 _ _ took
        rw [took] at same converting
        simp only [Nest.converted, same, Build.hush, proper]
        exact ⟨converting, ⟨front ++ [final], rfl⟩, .inl rfl⟩
      | ok between next =>
        rw [took] at same converting
        simp only [Nest.converted, same, Build.hush]
        have grown : (earlier ++ [token]).length = earlier.length + 1 := List.length_append
        have listed' : Scanner.tokens source = earlier ++ [token] ++ (front ++ [final]) := by
          rw [listed, List.append_assoc]
          rfl
        rw [← grown] at converting
        exact (ih inner.2 listed' after converting).cons

end TokenFeed

/-! ## Reads -/

namespace Session

/-- A batch has as many slots as the settings say, or one if they say none. -/
theorem capacity_batchWindow (session : Session) :
    session.batchWindow.capacity = max session.settings.tokenBatch.toNat 1 := by
  have limit : Window.maxCapacity = 4294967295 := rfl
  have bound := session.settings.tokenBatch.toNat_lt
  simp only [batchWindow, Window.ofStorage, Window.capacity, Array.take_eq_extract,
    Array.size_extract, Array.size_replicate]
  omega

/-- The drive of a read, with the tokens that are taken for it. -/
def track (session : Session) (arena : Arena) (source : List UInt8) : TokenFeed.Drive :=
  (TokenFeed.start (.start source) session.batchWindow).track session.settings.depthLimit source
    .empty ⟨arena, session.symbols, []⟩

/-- The tokens that a read takes, the last of which is the one at which it stops. -/
def taken (session : Session) (arena : Arena) (source : List UInt8) : List Token :=
  if Scanner.sourceLimit ≤ source.length then [] else (session.track arena source).taken

/-- A read that is not refused at once comes to what its drive comes to, and reports its findings.
-/
theorem read_of_track (session : Session) (arena : Arena) {source : List UInt8}
    (short : source.length < Scanner.sourceLimit) :
    (session.read arena source).result = Build.outcome (session.track arena source).outcome ∧
      (session.read arena source).session.diagnostics = session.diagnostics ++
        (Build.after (session.track arena source).outcome).findings.map Finding.diagnostic := by
  rw [read, if_neg (Nat.not_le_of_lt short), track, TokenFeed.outcome_track]
  dsimp only
  cases TokenFeed.drive _ _ _ _ _ with
  | ok forms done => exact ⟨rfl, rfl⟩
  | error problem stopped => exact ⟨rfl, rfl⟩

/-- The drive of a read accounts for the tokens that it takes. -/
theorem accounts_track (session : Session) (arena : Arena) {source : List UInt8}
    (short : source.length < Scanner.sourceLimit) :
    (session.track arena source).Accounts source session.settings.depthLimit
      (max session.settings.tokenBatch.toNat 1) [] (Scanner.tokens source)
      (session.converted arena source) := by
  obtain ⟨front, listed, inner⟩ := Scanner.tokens_eq_append_endOfInput source
  have positive := capacity_batchWindow_pos session
  have stands : (TokenFeed.start (.start source) session.batchWindow).Stands source
      session.batchWindow.capacity 0 (TokenFeed.inBatches session.batchWindow.capacity 0) := by
    rw [TokenFeed.inBatches_zero positive]
    exact TokenFeed.stands_start source session.batchWindow
  rw [converted, if_neg (Nat.not_le_of_lt short), listed, List.dropLast_concat,
    ← capacity_batchWindow]
  exact TokenFeed.accounts_track positive inner rfl listed stands (.start source positive)

/-- The findings of a read follow from the tokens that it takes and those that it converts. -/
theorem told_read (session : Session) (arena : Arena) (source : List UInt8) :
    ∃ findings,
      (session.read arena source).session.diagnostics =
        session.diagnostics ++ findings.map Finding.diagnostic ∧
      TokenFeed.Told source (max session.settings.tokenBatch.toNat 1)
        (session.taken arena source).length (session.converted arena source) findings := by
  by_cases long : Scanner.sourceLimit ≤ source.length
  · rw [read_of_long session arena long, taken, if_pos long, converted, if_pos long]
    exact ⟨[], (List.append_nil _).symm, .start source (Nat.le_max_right _ _)⟩
  · have short := Nat.lt_of_not_le long
    have told := (session.accounts_track arena short).told
    rw [List.length_nil, Nat.zero_add, List.nil_append] at told
    rw [taken, if_neg long]
    exact ⟨_, (session.read_of_track arena short).2, told⟩

/-- The tokens that a read takes are the first ones of its source, and all of them are converted
apart from the end of the input and one that lies too deep. -/
theorem taken_read (session : Session) (arena : Arena) (source : List UInt8) :
    session.taken arena source <+: Scanner.tokens source ∧
      (session.taken arena source = session.converted arena source ∨
        ∃ token, session.taken arena source = session.converted arena source ++ [token] ∧
          (token.kind = .endOfInput ∨ (session.read arena source).result =
            .error (.tooDeep token.span session.settings.depthLimit))) := by
  by_cases long : Scanner.sourceLimit ≤ source.length
  · rw [taken, if_pos long, converted, if_pos long]
    exact ⟨List.nil_prefix, .inl rfl⟩
  · have short := Nat.lt_of_not_le long
    have accounts := session.accounts_track arena short
    have result := (session.read_of_track arena short).1
    rw [taken, if_neg long]
    refine ⟨accounts.inside, accounts.rest.imp_right ?_⟩
    rintro ⟨token, one_more, ending | ⟨stopped, deep⟩⟩
    · exact ⟨token, one_more, .inl ending⟩
    · rw [deep] at result
      exact ⟨token, one_more, .inr result⟩

/-- What a read makes into forms are tokens of its source. -/
theorem mem_tokens_of_mem_converted {session : Session} {arena : Arena} {source : List UInt8}
    {token : Token} (converted : token ∈ session.converted arena source) :
    token ∈ Scanner.tokens source := by
  obtain ⟨inside, rest⟩ := session.taken_read arena source
  refine inside.subset ?_
  rcases rest with all | ⟨final, one_more, -⟩
  · rw [all]
    exact converted
  · rw [one_more]
    exact List.mem_append_left _ converted

/-- Whatever comes of a read, it reports the findings of the scanner about the batches that reach
the last token it has taken, and that the names of atoms are not text or integers are out of range
where these were made into forms; both in the order of the source. What it reports about a form
comes behind what the scanner has found in the batch that its token is in and in the batches before,
and in front of what the scanner finds later. Every token taken is made into a form or a part of
one, apart from the end of the input and one that lies too deep. -/
theorem read_reports_in_order (session : Session) (arena : Arena) (source : List UInt8) :
    let tokens := Scanner.tokens source
    let whole := (Scanner.start source).scan (.blank (source.length + 1))
    let size := max session.settings.tokenBatch.toNat 1
    let scanned := fun count => tokens.take (min tokens.length (TokenFeed.inBatches size count))
    let lexical := fun count => whole.findings.take ((scanned count).countP (·.kind = .error))
    let taken := session.taken arena source
    let converted := session.converted arena source
    let reading := session.read arena source
    (∃ findings,
      reading.session.diagnostics = session.diagnostics ++ findings.map Finding.diagnostic ∧
        findings.filter (·.cause.isLexical) = lexical taken.length ∧
        findings.filter (!·.cause.isLexical) = converted.flatMap (Token.conversions source) ∧
        ∀ earlier token later, converted = earlier ++ token :: later →
          ∃ before after, findings = before ++ token.conversions source ++ after ∧
            before.filter (·.cause.isLexical) = lexical (earlier.length + 1) ∧
            before.filter (!·.cause.isLexical) = earlier.flatMap (Token.conversions source)) ∧
      (∀ count, (lexical count).map Finding.span =
        ((scanned count).filter (·.kind = .error)).map Token.span) ∧
      taken <+: tokens ∧
      (taken = converted ∨ ∃ token, taken = converted ++ [token] ∧
        (token.kind = .endOfInput ∨
          reading.result = .error (.tooDeep token.span session.settings.depthLimit))) := by
  intro tokens whole size scanned lexical taken converted reading
  obtain ⟨findings, reported, told⟩ := session.told_read arena source
  have first (count : Nat) : TokenFeed.findingsOf source (TokenFeed.inBatches size count) =
      lexical count := (TokenFeed.findingsOf_eq_take source _).1
  refine ⟨⟨findings, reported, told.lexical.trans (first _), told.others, ?_⟩, ?_,
    session.taken_read arena source⟩
  · intro earlier token later parts
    obtain ⟨before, after, split, ahead, others⟩ := told.placed earlier token later parts
    exact ⟨before, after, split, ahead.trans (first _), others⟩
  · intro count
    rw [← first]
    exact (TokenFeed.findingsOf_eq_take source _).2

end Session

end LispReader

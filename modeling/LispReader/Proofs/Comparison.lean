import LispReader.Proofs.Alignment
import LispReader.Proofs.Echo
import LispReader.Proofs.Reading

/-!
# Comparing two reads

A nest looks at its tokens only through their kinds and their bytes, and copies their spans. So two
reads of rows of tokens with the same kinds and bytes go the same way: step by step they build the
same forms but for the spans, stop at the same fault but for its span, and leave workspaces that
correspond, as far as the steps that pay, intern and report keep the correspondence. What it is that
corresponds, and which faults of the first read excuse the second, is left open.
-/

namespace LispReader

/-! ## Changing spans -/

namespace Form

mutual

/-- A form with its spans changed. -/
def mapSpan (change : Span → Span) : Form → Form
  | .list span items => .list (change span) (mapSpans change items)
  | .quote span quoted => .quote (change span) (quoted.mapSpan change)
  | .symbol span handle => .symbol (change span) handle
  | .integer span value => .integer (change span) value
  | .float span value => .float (change span) value
  | .string span contents => .string (change span) contents
  | .error span => .error (change span)

/-- Forms with their spans changed. -/
def mapSpans (change : Span → Span) : List Form → List Form
  | [] => []
  | form :: rest => form.mapSpan change :: mapSpans change rest

end

/-- The spans of forms are changed one form at a time. -/
theorem mapSpans_eq_map (change : Span → Span) (forms : List Form) :
    mapSpans change forms = forms.map (mapSpan change) := by
  induction forms with
  | nil => rfl
  | cons form rest ih => rw [mapSpans, ih, List.map_cons]

/-- The span of a form is changed with it. -/
@[simp] theorem span_mapSpan (change : Span → Span) (form : Form) :
    (form.mapSpan change).span = change form.span := by
  cases form <;> rfl

mutual

/-- Leaving spans out is changing all of them to the same one. -/
theorem mapSpan_origin (form : Form) : form.mapSpan (fun _ => .origin) = form.withoutSpan := by
  match form with
  | .list _ items => rw [mapSpan, mapSpans_origin items, withoutSpan]
  | .quote _ quoted => rw [mapSpan, mapSpan_origin quoted, withoutSpan]
  | .symbol _ _ | .integer _ _ | .float _ _ | .string _ _ | .error _ => rfl

/-- Leaving spans out is changing all of them to the same one. -/
theorem mapSpans_origin (forms : List Form) :
    mapSpans (fun _ => .origin) forms = withoutSpans forms := by
  match forms with
  | [] => rfl
  | form :: rest => rw [mapSpans, mapSpan_origin form, mapSpans_origin rest, withoutSpans]

end

mutual

/-- A form whose spans are kept is the same. -/
theorem mapSpan_id (form : Form) : form.mapSpan (fun span => span) = form := by
  match form with
  | .list _ items => rw [mapSpan, mapSpans_id items]
  | .quote _ quoted => rw [mapSpan, mapSpan_id quoted]
  | .symbol _ _ | .integer _ _ | .float _ _ | .string _ _ | .error _ => rfl

/-- Forms whose spans are kept are the same. -/
theorem mapSpans_id (forms : List Form) : mapSpans (fun span => span) forms = forms := by
  match forms with
  | [] => rfl
  | form :: rest => rw [mapSpans, mapSpan_id form, mapSpans_id rest]

end

/-- A row of forms whose spans are kept is the same. -/
theorem map_mapSpan_id (forms : List Form) : forms.map (mapSpan fun span => span) = forms := by
  rw [← mapSpans_eq_map, mapSpans_id]

end Form

/-- A fault with its span changed. -/
def ReadError.mapSpan (change : Span → Span) : ReadError → ReadError
  | .unbalanced location => .unbalanced (change location)
  | .unclosed opening => .unclosed (change opening)
  | .unexpectedEnd location => .unexpectedEnd (change location)
  | .empty => .empty
  | .tooDeep location limit => .tooDeep (change location) limit
  | .sourceTooLarge length => .sourceTooLarge length
  | .arena problem => .arena problem

/-- A fault whose span is kept is the same. -/
theorem ReadError.mapSpan_id (problem : ReadError) :
    problem.mapSpan (fun span => span) = problem := by
  cases problem <;> rfl

/-- What a token shows: its kind, its span once changed, and its bytes. -/
def Token.view (change : Span → Span) (source : List UInt8) (token : Token) :
    TokenKind × Span × List UInt8 :=
  (token.kind, change token.span, token.lexeme source)

/-! ## Comparisons -/

/-- How two reads are compared: their spans after a change on either side, their workspaces by a
correspondence. Some faults of the first read excuse whatever the second does. -/
structure Comparison where
  left : Span → Span
  right : Span → Span
  workspaces : Workspace → Workspace → Prop
  excuses : ReadError → Prop

namespace Comparison

variable {α β γ δ : Type} {c : Comparison}

/-- Two steps end alike: with values that are `related` or with the same fault, and in workspaces
that correspond; or the first fails with a fault that excuses the second. -/
inductive EndAlike (c : Comparison) (related : α → β → Prop) :
    EStateM.Result ReadError Workspace α → EStateM.Result ReadError Workspace β → Prop where
  | ok {value : α} {value' : β} {after after' : Workspace} (holds : related value value')
      (corresponds : c.workspaces after after') : EndAlike c related (.ok value after)
        (.ok value' after')
  | error {problem problem' : ReadError} {stopped stopped' : Workspace}
      (same : problem.mapSpan c.left = problem'.mapSpan c.right)
      (corresponds : c.workspaces stopped stopped') : EndAlike c related (.error problem stopped)
        (.error problem' stopped')
  | excused {problem : ReadError} {stopped : Workspace} (excuse : c.excuses problem)
      (outcome : EStateM.Result ReadError Workspace β) :
      EndAlike c related (.error problem stopped) outcome

/-- Two steps that end alike from all workspaces that correspond. -/
def Agree (c : Comparison) (related : α → β → Prop) (first : Build α) (second : Build β) : Prop :=
  ∀ workspace workspace', c.workspaces workspace workspace' →
    EndAlike c related (first workspace) (second workspace')

/-- What a comparison has to keep: spans that are alike cover spans that are alike, and paying for
forms, interning a name and reporting a token without a value are done alike. -/
structure Lawful (c : Comparison) : Prop where
  cover : ∀ {first first' second second' : Span}, c.left first = c.right first' →
    c.left second = c.right second' →
      c.left (first.cover second) = c.right (first'.cover second')
  reserve : ∀ (size align : UInt64), align = 1 ∨ align = Build.wordAlignment →
    c.Agree (fun _ _ => True) (Build.reserve size align) (Build.reserve size align)
  intern : ∀ name, c.Agree Eq (Build.intern name) (Build.intern name)
  report : ∀ (cause : Cause) {span span' : Span}, c.left span = c.right span' →
    c.Agree (fun _ _ => True) (Build.report [⟨cause, span⟩]) (Build.report [⟨cause, span'⟩])

namespace Agree

variable {related : α → β → Prop}

/-- Giving values that are related ends alike. -/
theorem pure {value : α} {value' : β} (holds : related value value') :
    c.Agree related (Pure.pure value) (Pure.pure value') :=
  fun _ _ corresponds => .ok holds corresponds

/-- Failing with the same fault ends alike. -/
theorem throw {problem problem' : ReadError}
    (same : problem.mapSpan c.left = problem'.mapSpan c.right) :
    c.Agree related (MonadExcept.throw problem) (MonadExcept.throw problem') :=
  fun _ _ corresponds => .error same corresponds

/-- Steps that agree may be followed by steps that agree. -/
theorem bind {first : Build γ} {first' : Build δ} {second : γ → Build α} {second' : δ → Build β}
    {between : γ → δ → Prop} (agree : c.Agree between first first')
    (goes_on : ∀ value value', between value value' →
      c.Agree related (second value) (second' value')) :
    c.Agree related (first >>= second) (first' >>= second') := by
  intro workspace workspace' corresponds
  have ended := agree workspace workspace' corresponds
  generalize ran : first workspace = outcome at ended
  generalize ran' : first' workspace' = outcome' at ended
  cases ended with
  | ok holds after =>
    rw [Build.bind_of_ok ran, Build.bind_of_ok ran']
    exact goes_on _ _ holds _ _ after
  | error same stopped =>
    rw [Build.bind_of_error ran, Build.bind_of_error ran']
    exact .error same stopped
  | excused excuse =>
    rw [Build.bind_of_error ran]
    exact .excused excuse _

end Agree

/-! ## What is alike -/

/-- Two forms that are the same but for their spans. -/
def FormAlike (c : Comparison) (form form' : Form) : Prop :=
  form.mapSpan c.left = form'.mapSpan c.right

/-- Two rows of forms that are the same but for their spans. -/
def FormsAlike (c : Comparison) (forms forms' : List Form) : Prop :=
  forms.map (Form.mapSpan c.left) = forms'.map (Form.mapSpan c.right)

/-- Open frames that are the same but for their spans. -/
inductive FramesAlike (c : Comparison) : List Frame → List Frame → Prop where
  | nil : FramesAlike c [] []
  | list {opening opening' : Span} {items items' : List Form} {frames frames' : List Frame}
      (spans : c.left opening = c.right opening') (inner : c.FormsAlike items items')
      (outer : FramesAlike c frames frames') :
      FramesAlike c (.list opening items :: frames) (.list opening' items' :: frames')
  | quote {mark mark' : Span} {frames frames' : List Frame} (spans : c.left mark = c.right mark')
      (outer : FramesAlike c frames frames') :
      FramesAlike c (.quote mark :: frames) (.quote mark' :: frames')

/-- Nests that are the same but for their spans. -/
structure NestsAlike (c : Comparison) (nest nest' : Nest) : Prop where
  frames : c.FramesAlike nest.frames nest'.frames
  forms : c.FormsAlike nest.forms nest'.forms

/-- A limit that is no lower for the second read, and the same unless it excuses it. -/
def LimitsAlike (c : Comparison) (limit limit' : Nat) : Prop :=
  limit = limit' ∨ limit ≤ limit' ∧ ∀ span, c.excuses (.tooDeep span limit)

/-- Forms that are alike have spans that are alike. -/
theorem FormAlike.span {form form' : Form} (alike : c.FormAlike form form') :
    c.left form.span = c.right form'.span := by
  have spans := congrArg Form.span alike
  rwa [Form.span_mapSpan, Form.span_mapSpan] at spans

/-- There are as many forms in rows that are alike. -/
theorem FormsAlike.length {forms forms' : List Form} (alike : c.FormsAlike forms forms') :
    forms.length = forms'.length := by
  have lengths := congrArg List.length alike
  rwa [List.length_map, List.length_map] at lengths

/-- A form in front of a row. -/
theorem FormsAlike.cons {form form' : Form} {forms forms' : List Form}
    (first : c.FormAlike form form') (alike : c.FormsAlike forms forms') :
    c.FormsAlike (form :: forms) (form' :: forms') := by
  rw [FormsAlike, List.map_cons, List.map_cons, show _ = _ from first, show _ = _ from alike]

/-- Rows that are alike are so from back to front. -/
theorem FormsAlike.reverse {forms forms' : List Form} (alike : c.FormsAlike forms forms') :
    c.FormsAlike forms.reverse forms'.reverse := by
  rw [FormsAlike, List.map_reverse, List.map_reverse, show _ = _ from alike]

/-- Nests that are alike are equally deep. -/
theorem FramesAlike.length {frames frames' : List Frame} (alike : c.FramesAlike frames frames') :
    frames.length = frames'.length := by
  induction alike with
  | nil => rfl
  | list spans inner outer ih => rw [List.length_cons, ih, List.length_cons]
  | quote spans outer ih => rw [List.length_cons, ih, List.length_cons]

/-- What lies equally deep is refused alike. -/
theorem agree_limited {limit limit' : Nat} (limits : c.LimitsAlike limit limit') (depth : Nat)
    {span span' : Span} (spans : c.left span = c.right span') {related : α → β → Prop}
    {first : Build α} {second : Build β} (agree : c.Agree related first second) :
    c.Agree related (if limit < depth then throw (.tooDeep span limit) else first)
      (if limit' < depth then throw (.tooDeep span' limit') else second) := by
  by_cases deep : limit < depth
  · rw [if_pos deep]
    rcases limits with rfl | ⟨-, excuse⟩
    · rw [if_pos deep]
      exact .throw (congrArg (ReadError.tooDeep · _) spans)
    · exact fun _ _ _ => .excused (excuse span) _
  · have shallow : ¬ limit' < depth := by
      rcases limits with rfl | ⟨lower, -⟩ <;> omega
    rw [if_neg deep, if_neg shallow]
    exact agree

/-! ## Steps of a nest -/

section

variable (lawful : c.Lawful)
include lawful

/-- Forms are paid for alike. -/
theorem agree_reserveForm :
    c.Agree (fun _ _ => True) Build.reserveForm Build.reserveForm :=
  lawful.reserve _ _ (.inr rfl)

/-- References to forms are paid for alike. -/
theorem agree_reserveReferences (count : Nat) :
    c.Agree (fun _ _ => True) (Build.reserveReferences count) (Build.reserveReferences count) :=
  lawful.reserve _ _ (.inr rfl)

/-- A token without a value is reported and stood in for alike. -/
theorem agree_refuse (cause : Cause) {span span' : Span} (spans : c.left span = c.right span') :
    c.Agree c.FormAlike (Build.refuse cause span) (Build.refuse cause span') :=
  .bind (lawful.report cause spans) fun _ _ _ => .pure (congrArg Form.error spans)

/-- Leaves with the same bytes have the same contents. -/
theorem agree_content (kind : LeafKind) {span span' : Span} (spans : c.left span = c.right span')
    (lexeme : List UInt8) :
    c.Agree c.FormAlike (Build.content kind span lexeme) (Build.content kind span' lexeme) := by
  cases kind with
  | atom =>
    simp only [Build.content, Build.atom]
    split
    · refine .bind (lawful.intern _) fun symbol symbol' same => .pure ?_
      rw [same, FormAlike, Form.mapSpan, Form.mapSpan, spans]
    · exact agree_refuse lawful _ spans
  | integer =>
    simp only [Build.content, Build.integer]
    split
    · exact .pure (congrArg (Form.integer · _) spans)
    · exact agree_refuse lawful _ spans
  | float =>
    simp only [Build.content, Build.float]
    split
    · exact .pure (congrArg (Form.float · _) spans)
    · exact agree_refuse lawful _ spans
  | string =>
    exact .bind (lawful.reserve _ _ (.inl rfl)) fun _ _ _ =>
      .pure (congrArg (Form.string · _) spans)
  | error => exact .pure (congrArg Form.error spans)

/-- Leaves with the same bytes are built and paid for alike. -/
theorem agree_leaf (kind : LeafKind) {span span' : Span} {source source' : List UInt8}
    (spans : c.left span = c.right span') (lexemes : span.slice source = span'.slice source') :
    c.Agree c.FormAlike (Build.leaf ⟨kind.tokenKind, span⟩ source)
      (Build.leaf ⟨kind.tokenKind, span'⟩ source') := by
  rw [Build.leaf_eq, Build.leaf_eq, lexemes]
  refine .bind (agree_content lawful kind spans _) fun form form' alike => ?_
  exact .bind (agree_reserveForm lawful) fun _ _ _ => .pure alike

/-- Forms that are alike are put in their places alike. -/
theorem agree_place {form form' : Form} {frames frames' : List Frame} {forms forms' : List Form}
    (alike : c.FormAlike form form') (framesAlike : c.FramesAlike frames frames')
    (formsAlike : c.FormsAlike forms forms') :
    c.Agree c.NestsAlike (Nest.place form frames forms) (Nest.place form' frames' forms') := by
  induction framesAlike generalizing form form' with
  | nil => exact .pure ⟨.nil, formsAlike.cons alike⟩
  | list spans inner outer ih => exact .pure ⟨.list spans (inner.cons alike) outer, formsAlike⟩
  | @quote mark mark' _ _ spans outer ih =>
    refine .bind (agree_reserveForm lawful) fun _ _ _ => ih ?_
    rw [FormAlike, Form.mapSpan, Form.mapSpan, lawful.cover spans alike.span, show _ = _ from alike]

/-- Lists that are alike are completed alike. -/
theorem agree_close {opening opening' closing closing' : Span} {items items' : List Form}
    {outer outer' : List Frame} {forms forms' : List Form}
    (openings : c.left opening = c.right opening') (closings : c.left closing = c.right closing')
    (itemsAlike : c.FormsAlike items items') (outerAlike : c.FramesAlike outer outer')
    (formsAlike : c.FormsAlike forms forms') :
    c.Agree c.NestsAlike (Nest.close opening closing items outer forms)
      (Nest.close opening' closing' items' outer' forms') := by
  rw [Nest.close, Nest.close, itemsAlike.length]
  refine .bind (agree_reserveReferences lawful _) fun _ _ _ =>
    .bind (agree_reserveForm lawful) fun _ _ _ => agree_place lawful ?_ outerAlike formsAlike
  rw [FormAlike, Form.mapSpan, Form.mapSpan, lawful.cover openings closings, Form.mapSpans_eq_map,
    Form.mapSpans_eq_map, show _ = _ from itemsAlike.reverse]

/-- Tokens that show the same start forms alike. -/
theorem agree_startForm {limit limit' : Nat} (limits : c.LimitsAlike limit limit')
    {source source' : List UInt8} {nest nest' : Nest} (alike : c.NestsAlike nest nest')
    {token token' : Token} (same : token.view c.left source = token'.view c.right source') :
    c.Agree c.NestsAlike (nest.startForm limit source token)
      (nest'.startForm limit' source' token') := by
  obtain ⟨kind, span⟩ := token
  obtain ⟨kind', span'⟩ := token'
  simp only [Token.view, Token.lexeme, Prod.mk.injEq] at same
  obtain ⟨rfl, spans, lexemes⟩ := same
  have depths : nest.depth = nest'.depth := alike.frames.length
  have leaf (leafKind : LeafKind) : c.Agree c.NestsAlike
      (Build.leaf ⟨leafKind.tokenKind, span⟩ source >>= (Nest.place · nest.frames nest.forms))
      (Build.leaf ⟨leafKind.tokenKind, span'⟩ source' >>=
        (Nest.place · nest'.frames nest'.forms)) :=
    .bind (agree_leaf lawful leafKind spans lexemes) fun _ _ built =>
      agree_place lawful built alike.frames alike.forms
  rw [Nest.startForm, Nest.startForm, ← depths]
  apply agree_limited limits nest.depth spans
  cases kind with
  | leftParen => exact .pure ⟨.list spans rfl alike.frames, alike.forms⟩
  | quote => exact .pure ⟨.quote spans alike.frames, alike.forms⟩
  | rightParen => exact .throw (congrArg ReadError.unbalanced spans)
  | endOfInput => exact .throw (congrArg ReadError.unexpectedEnd spans)
  | atom => exact leaf .atom
  | integer => exact leaf .integer
  | float => exact leaf .float
  | string => exact leaf .string
  | error => exact leaf .error

/-- Tokens that show the same are taken alike. -/
theorem agree_take {limit limit' : Nat} (limits : c.LimitsAlike limit limit')
    {source source' : List UInt8} {nest nest' : Nest} (alike : c.NestsAlike nest nest')
    {token token' : Token} (same : token.view c.left source = token'.view c.right source') :
    c.Agree c.NestsAlike (nest.take limit source token) (nest'.take limit' source' token') := by
  have starts := agree_startForm lawful limits alike same
  have kinds : token.kind = token'.kind := congrArg Prod.fst same
  have spans : c.left token.span = c.right token'.span := congrArg (·.2.1) same
  by_cases right : token.kind = .rightParen
  · have right' : token'.kind = .rightParen := kinds ▸ right
    obtain ⟨frames, forms⟩ := nest
    obtain ⟨frames', forms'⟩ := nest'
    obtain ⟨framesAlike, formsAlike⟩ := alike
    simp only at framesAlike formsAlike
    rw [Nest.take, Nest.take, right, right']
    cases framesAlike with
    | nil => exact .throw (congrArg ReadError.unbalanced spans)
    | list openings inner outer => exact agree_close lawful openings spans inner outer formsAlike
    | quote marks outer => exact starts
  · rw [Nest.take_of_ne right, Nest.take_of_ne (kinds ▸ right)]
    exact starts

/-- Nests that are alike are ended alike. -/
theorem agree_finish {limit limit' : Nat} (limits : c.LimitsAlike limit limit')
    {nest nest' : Nest} (alike : c.NestsAlike nest nest') {location location' : Span}
    (spans : c.left location = c.right location') :
    c.Agree c.FormsAlike (nest.finish limit location) (nest'.finish limit' location') := by
  have depths : nest.depth = nest'.depth := alike.frames.length
  obtain ⟨frames, forms⟩ := nest
  obtain ⟨frames', forms'⟩ := nest'
  obtain ⟨framesAlike, formsAlike⟩ := alike
  simp only at framesAlike formsAlike
  cases framesAlike with
  | nil =>
    by_cases none_read : forms = []
    · obtain rfl : forms' = [] := by
        rw [← List.length_eq_zero_iff, ← formsAlike.length, none_read, List.length_nil]
      subst none_read
      exact .throw rfl
    · have some_read : forms' ≠ [] := by
        rw [← List.length_pos_iff, ← formsAlike.length, List.length_pos_iff]
        exact none_read
      rw [Nest.finish_of_complete location none_read, Nest.finish_of_complete location' some_read,
        formsAlike.length]
      exact .bind (agree_reserveReferences lawful _) fun _ _ _ => .pure formsAlike.reverse
  | list openings inner outer => exact .throw (congrArg ReadError.unclosed openings)
  | quote marks outer =>
    rw [Nest.finish, Nest.finish, ← depths]
    exact agree_limited limits _ spans (.throw (congrArg ReadError.unexpectedEnd spans))

/-- Rows of tokens that show the same are read alike. -/
theorem agree_run {limit limit' : Nat} (limits : c.LimitsAlike limit limit')
    {source source' : List UInt8}
    (ends : c.left (Token.endOfInput source.length).span =
      c.right (Token.endOfInput source'.length).span)
    {tokens tokens' : List Token}
    (same : tokens.map (Token.view c.left source) = tokens'.map (Token.view c.right source'))
    {nest nest' : Nest} (alike : c.NestsAlike nest nest') :
    c.Agree c.FormsAlike (nest.run limit source tokens) (nest'.run limit' source' tokens') := by
  induction tokens generalizing tokens' nest nest' with
  | nil =>
    obtain rfl : tokens' = [] := List.map_eq_nil_iff.mp same.symm
    exact agree_finish lawful limits alike ends
  | cons token rest ih =>
    rw [List.map_cons] at same
    obtain ⟨token', rest', rfl, first, others⟩ := List.map_eq_cons_iff.mp same.symm
    have kinds : token'.kind = token.kind := congrArg Prod.fst first
    have spans : c.left token.span = c.right token'.span := congrArg (·.2.1) first.symm
    rw [Nest.run, Nest.run, kinds]
    split
    · exact agree_finish lawful limits alike spans
    · exact .bind (agree_take lawful limits alike first.symm) fun _ _ after =>
        ih others.symm after

end

end Comparison

end LispReader

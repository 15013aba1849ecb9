import LispReader.Proofs.RecursiveDescent

/-!
# Nests and recursive descent

A nest takes tokens one at a time and keeps what is open in its frames. On any row of tokens it does
what recursive descent does: a form that starts is read to its end and put in its place, and the
first token that fits nowhere is refused, so that from the start a nest and recursive descent come
to the same. In particular a nest takes the tokens of a phrase by building the form of the phrase.
Conversely the tokens that a nest takes without a fault, up to the end of the input, are those that
its open frames still wait for, followed by phrases.
-/

namespace LispReader

namespace Build

variable {α β : Type}

/-- After a step that succeeds the next one goes on. -/
theorem bind_of_ok {first : Build α} {value : α} {before between : Workspace}
    (ran : first before = .ok value between) (second : α → Build β) :
    (first >>= second) before = second value between := by
  simp only [bind, EStateM.bind, ran]

/-- After a step that fails nothing goes on. -/
theorem bind_of_error {first : Build α} {problem : ReadError} {before between : Workspace}
    (ran : first before = .error problem between) (second : α → Build β) :
    (first >>= second) before = .error problem between := by
  simp only [bind, EStateM.bind, ran]

/-- A step after another succeeds only if both do. -/
theorem bind_eq_ok {first : Build α} {second : α → Build β} {result : β}
    {before after : Workspace} (succeeds : (first >>= second) before = .ok result after) :
    ∃ value between, first before = .ok value between ∧
      second value between = .ok result after := by
  cases ran : first before with
  | ok value between =>
    rw [bind_of_ok ran] at succeeds
    exact ⟨value, between, rfl, succeeds⟩
  | error problem between =>
    rw [bind_of_error ran] at succeeds
    cases succeeds

/-- What a leaf is read as, before it is paid for. -/
def content (kind : LeafKind) (span : Span) (lexeme : List UInt8) : Build Form :=
  match kind with
  | .atom => atom span lexeme
  | .integer => integer span lexeme
  | .float => float span lexeme
  | .string => string span lexeme
  | .error => return .error span

/-- A leaf is read and then paid for. -/
theorem leaf_eq (kind : LeafKind) (span : Span) (source : List UInt8) :
    leaf ⟨kind.tokenKind, span⟩ source = (do
      let form ← content kind span (span.slice source)
      reserveForm
      return form) := by
  cases kind <;> rfl

end Build

namespace Nest

/-- Takes tokens up to the end of the input. Where they stop short of it, the end of the source
stands in. -/
def run (limit : Nat) (source : List UInt8) (nest : Nest) : List Token → Build (List Form)
  | [] => nest.finish limit (Token.endOfInput source.length).span
  | token :: rest =>
    if token.kind = .endOfInput then nest.finish limit token.span
    else do
      let nest ← nest.take limit source token
      nest.run limit source rest

/-! ## Single tokens -/

/-- Whatever is open, every token but a right parenthesis starts a form. -/
theorem take_of_ne {limit : Nat} {source : List UInt8} {nest : Nest} {token : Token}
    (other : token.kind ≠ .rightParen) :
    nest.take limit source token = nest.startForm limit source token := by
  unfold take
  split
  · exact absurd (by assumption) other
  · exact absurd (by assumption) other
  · rfl

/-- A leaf is built and put in its place. -/
theorem take_leaf {limit : Nat} {nest : Nest} (source : List UInt8) (kind : LeafKind) (span : Span)
    (shallow : nest.depth ≤ limit) :
    nest.take limit source ⟨kind.tokenKind, span⟩ = (do
      let form ← Build.leaf ⟨kind.tokenKind, span⟩ source
      place form nest.frames nest.forms) := by
  rw [take_of_ne (by cases kind <;> simp [LeafKind.tokenKind]), startForm, if_neg (by omega)]
  cases kind <;> rfl

/-- A left parenthesis opens a list. -/
theorem take_leftParen {limit : Nat} {nest : Nest} (source : List UInt8) (span : Span)
    (shallow : nest.depth ≤ limit) :
    nest.take limit source ⟨.leftParen, span⟩ =
      return ⟨.list span [] :: nest.frames, nest.forms⟩ := by
  rw [take_of_ne (by simp), startForm, if_neg (by omega)]

/-- An apostrophe opens a quote. -/
theorem take_quote {limit : Nat} {nest : Nest} (source : List UInt8) (span : Span)
    (shallow : nest.depth ≤ limit) :
    nest.take limit source ⟨.quote, span⟩ =
      return ⟨.quote span :: nest.frames, nest.forms⟩ := by
  rw [take_of_ne (by simp), startForm, if_neg (by omega)]

/-- After an apostrophe every token but the end of the input starts a form. -/
theorem take_quoted {limit : Nat} {source : List UInt8} {mark : Span} {outer : List Frame}
    {forms : List Form} (token : Token) :
    take limit source ⟨.quote mark :: outer, forms⟩ token =
      startForm limit source ⟨.quote mark :: outer, forms⟩ token := by
  obtain ⟨kind, span⟩ := token
  cases kind <;> rfl

/-- After an apostrophe the end of the input is where a form must start. -/
theorem finish_quoted {limit : Nat} {mark : Span} {outer : List Frame} {forms : List Form}
    (location : Span) :
    finish limit ⟨.quote mark :: outer, forms⟩ location =
      throw (Descent.endFault limit (outer.length + 1) location) := by
  by_cases deep : limit < outer.length + 1
  · rw [Descent.endFault, if_pos deep]
    exact if_pos deep
  · rw [Descent.endFault, if_neg deep]
    exact if_neg deep

/-- Complete forms are given with references to them when the source ends. -/
theorem finish_of_complete {limit : Nat} {forms : List Form} (location : Span)
    (nonempty : forms ≠ []) :
    finish limit ⟨[], forms⟩ location = (do
      Build.reserveReferences forms.length
      return forms.reverse) := by
  cases forms with
  | nil => exact absurd rfl nonempty
  | cons form rest => rfl

/-- Where nothing is open it does not matter where the source ends. -/
theorem finish_top {limit : Nat} {forms : List Form} (location location' : Span) :
    finish limit ⟨[], forms⟩ location = finish limit ⟨[], forms⟩ location' := by
  cases forms <;> rfl

/-! ## Rows of tokens -/

mutual

/-- A nest that starts a form goes on as recursive descent does: it reads the whole form and puts it
in its place. -/
theorem run_startForm (limit : Nat) (source : List UInt8) (frames : List Frame)
    (forms : List Form) (token : Token) (tokens : List Token) :
    (startForm limit source ⟨frames, forms⟩ token >>= fun nest => nest.run limit source tokens) =
      (do
        let read ← Descent.form limit source frames.length token tokens
        let nest ← place read.value frames forms
        nest.run limit source read.rest) := by
  rw [startForm, Descent.form.eq_def, depth]
  split
  · rfl
  · obtain ⟨kind, span⟩ := token
    cases kind with
    | leftParen =>
      simp only [pure_bind, bind_assoc]
      rw [run_list limit source span [] frames forms tokens]
      simp only [close, bind_assoc, List.append_nil, List.length_reverse, List.reverse_reverse]
    | quote =>
      simp only [pure_bind]
      cases tokens with
      | nil =>
        rw [run, finish_quoted]
        rfl
      | cons next others =>
        dsimp only
        rw [run]
        split
        · rename_i ending
          rw [finish_quoted, Descent.form_endOfInput ending]
          rfl
        · rw [take_quoted, run_startForm limit source (.quote span :: frames) forms next others]
          simp only [place, bind_assoc, pure_bind, List.length_cons]
    | rightParen | endOfInput => rfl
    | atom | integer | float | string | error => simp only [bind_assoc, pure_bind]
  termination_by (tokens.length, 1)

/-- A nest with an open list goes on as recursive descent does: it reads the other items of the
list and closes it. -/
theorem run_list (limit : Nat) (source : List UInt8) (opening : Span) (items : List Form)
    (outer : List Frame) (forms : List Form) (tokens : List Token) :
    run limit source ⟨.list opening items :: outer, forms⟩ tokens = (do
      let inner ← Descent.items limit source (outer.length + 1) opening tokens
      let nest ← close opening inner.value.2 (inner.value.1.reverse ++ items) outer forms
      nest.run limit source inner.rest) := by
  rw [Descent.items.eq_def]
  cases tokens with
  | nil => rfl
  | cons token others =>
    simp only [run]
    by_cases right : token.kind = .rightParen
    · obtain ⟨kind, span⟩ := token
      cases right
      rfl
    · by_cases ending : token.kind = .endOfInput
      · rw [if_pos ending, if_neg right, if_pos ending]
        rfl
      · rw [if_neg ending, if_neg right, if_neg ending, take_of_ne right,
          run_startForm limit source _ forms token others]
        simp only [place, pure_bind, bind_assoc, List.length_cons]
        congr 1
        funext first
        rw [run_list limit source opening (first.value :: items) outer forms first.rest]
        simp only [List.reverse_cons, List.append_assoc, List.singleton_append]
  termination_by (tokens.length, 0)
  decreasing_by
    · exact .left _ _ (Nat.lt_succ_self _)
    · exact .left _ _ (Nat.lt_succ_of_le first.length_rest_le)

end

/-- A nest with nothing open reads forms as recursive descent does. -/
theorem run_top (limit : Nat) (source : List UInt8) (forms : List Form) (tokens : List Token) :
    run limit source ⟨[], forms⟩ tokens = (do
      let more ← Descent.forms limit source tokens
      finish limit ⟨[], more.reverse ++ forms⟩ .origin) := by
  rw [Descent.forms.eq_def]
  cases tokens with
  | nil => exact finish_top _ _
  | cons token others =>
    simp only [run]
    by_cases ending : token.kind = .endOfInput
    · rw [if_pos ending, if_pos ending]
      exact finish_top _ _
    · rw [if_neg ending, if_neg ending]
      by_cases right : token.kind = .rightParen
      · obtain ⟨kind, span⟩ := token
        cases right
        rfl
      · rw [if_neg right, take_of_ne right, run_startForm limit source [] forms token others]
        simp only [place, pure_bind, bind_assoc, List.length_nil]
        congr 1
        funext first
        rw [run_top limit source (first.value :: forms) first.rest]
        simp only [List.reverse_cons, List.append_assoc, List.singleton_append]
  termination_by tokens.length
  decreasing_by exact Nat.lt_succ_of_le first.length_rest_le

/-- On every row of tokens a nest comes to what recursive descent comes to. -/
theorem run_empty_eq_body (limit : Nat) (source : List UInt8) (tokens : List Token) :
    empty.run limit source tokens = Descent.body limit source tokens := by
  rw [empty, run_top, Descent.body]
  congr 1
  funext more
  cases more with
  | nil => rfl
  | cons form rest =>
    have nonempty : (form :: rest).reverse ≠ [] := by simp
    rw [List.append_nil, finish_of_complete _ nonempty, List.length_reverse, List.reverse_reverse]
    rfl

/-! ## Phrases drive a nest -/

/-- A nest takes the tokens of a phrase by building its form and putting it in its place. -/
theorem run_tokens {limit : Nat} {source : List UInt8} (phrase : Phrase) (nest : Nest)
    (rest : List Token) (within : phrase.Within limit nest.depth) :
    nest.run limit source (phrase.tokens ++ rest) = (do
      let form ← phrase.build source
      let nest ← place form nest.frames nest.forms
      nest.run limit source rest) := by
  obtain ⟨token, others, parts, starts⟩ := phrase.tokens_eq_cons
  have proper := Phrase.ne_of_opens starts
  rw [parts, List.cons_append, run, if_neg proper.2, take_of_ne proper.1,
    run_startForm limit source nest.frames nest.forms]
  exact Descent.form_tokens source phrase parts rest within fun form rest => do
    let nest ← place form nest.frames nest.forms
    nest.run limit source rest

/-- A nest with nothing open takes phrases by adding their forms to the complete ones. -/
theorem run_tokensAll {limit : Nat} {source : List UInt8} (phrases : List Phrase)
    (forms : List Form) (rest : List Token) (within : Phrase.WithinAll limit 0 phrases) :
    run limit source ⟨[], forms⟩ (Phrase.tokensAll phrases ++ rest) = (do
      let more ← Phrase.buildAll source phrases
      run limit source ⟨[], more.reverse ++ forms⟩ rest) := by
  induction phrases generalizing forms with
  | nil => simp [Phrase.tokensAll, Phrase.buildAll]
  | cons phrase phrases ih =>
    simp only [Phrase.tokensAll, List.append_assoc]
    rw [run_tokens phrase _ _ within.1]
    simp only [place, pure_bind, Phrase.buildAll, bind_assoc]
    congr 1
    funext form
    rw [ih (form :: forms) within.2]
    simp only [List.reverse_cons, List.append_assoc, List.singleton_append]

/-! ## What a nest takes is made of phrases -/

/-- The frames that are still open once every quote that waits for the same form has it. -/
def dropQuotes : List Frame → List Frame
  | .quote _ :: outer => dropQuotes outer
  | frames => frames

/-- What open frames still wait for, up to the end of the input: a list waits for phrases and its
right parenthesis, a quote for one phrase, with which all quotes around it are complete too. -/
inductive Closes (limit : Nat) : List Frame → List Token → Prop where
  | top (phrases : List Phrase) (within : Phrase.WithinAll limit 0 phrases) :
    Closes limit [] (Phrase.tokensAll phrases)
  | list {opening closing : Span} {items : List Form} {outer : List Frame} {rest : List Token}
      (phrases : List Phrase) (within : Phrase.WithinAll limit (outer.length + 1) phrases)
      (after : Closes limit (dropQuotes outer) rest) :
    Closes limit (.list opening items :: outer)
      (Phrase.tokensAll phrases ++ ⟨.rightParen, closing⟩ :: rest)
  | quote {mark : Span} {outer : List Frame} {rest : List Token} (phrase : Phrase)
      (within : phrase.Within limit (outer.length + 1))
      (after : Closes limit (dropQuotes outer) rest) :
    Closes limit (.quote mark :: outer) (phrase.tokens ++ rest)

/-- A phrase in front is taken by whatever is open. -/
theorem Closes.cons {limit : Nat} {frames : List Frame} {rest : List Token} (phrase : Phrase)
    (within : phrase.Within limit frames.length) (after : Closes limit (dropQuotes frames) rest) :
    Closes limit frames (phrase.tokens ++ rest) := by
  match frames with
  | [] =>
    cases after with
    | top phrases others => exact Closes.top (phrase :: phrases) ⟨within, others⟩
  | .list opening items :: outer =>
    cases after with
    | list phrases others after =>
      rw [← List.append_assoc]
      exact Closes.list (phrase :: phrases) ⟨within, others⟩ after
  | .quote mark :: outer => exact Closes.quote phrase within after

/-- A form that was put in its place has completed the quotes that waited for it. -/
theorem closes_place {limit : Nat} {form : Form} {frames : List Frame} {forms : List Form}
    {nest : Nest} {workspace workspace' : Workspace} {rest : List Token}
    (placed : place form frames forms workspace = .ok nest workspace')
    (closes : Closes limit nest.frames rest) : Closes limit (dropQuotes frames) rest := by
  induction frames generalizing form workspace with
  | nil =>
    cases placed
    exact closes
  | cons frame outer ih =>
    cases frame with
    | list opening items =>
      cases placed
      cases closes with
      | list phrases within after => exact .list phrases within after
    | quote mark =>
      obtain ⟨_, between, -, placed⟩ := Build.bind_eq_ok placed
      exact ih placed

/-- A token with which a form starts belongs to a phrase that the nest takes. -/
theorem closes_of_startForm {limit : Nat} {source : List UInt8} {nest after : Nest} {token : Token}
    {workspace workspace' : Workspace} {rest : List Token}
    (started : nest.startForm limit source token workspace = .ok after workspace')
    (closes : Closes limit after.frames rest) : Closes limit nest.frames (token :: rest) := by
  obtain ⟨kind, span⟩ := token
  simp only [startForm] at started
  split at started
  · cases started
  rename_i shallow
  have within : nest.frames.length ≤ limit := Nat.le_of_not_lt shallow
  have leaf (kind : LeafKind) (built : (do
        let form ← Build.leaf ⟨kind.tokenKind, span⟩ source
        place form nest.frames nest.forms : Build Nest) workspace = .ok after workspace') :
      Closes limit nest.frames (⟨kind.tokenKind, span⟩ :: rest) := by
    obtain ⟨form, between, -, placed⟩ := Build.bind_eq_ok built
    exact Closes.cons (.leaf kind span) within (closes_place placed closes)
  cases kind with
  | leftParen =>
    cases started
    cases closes with
    | @list _ closing _ _ rest phrases items after =>
      have tokens : (Phrase.list span phrases closing).tokens ++ rest =
          ⟨.leftParen, span⟩ :: (Phrase.tokensAll phrases ++ ⟨.rightParen, closing⟩ :: rest) := by
        simp [Phrase.tokens]
      rw [← tokens]
      exact Closes.cons (.list span phrases closing) ⟨within, items⟩ after
  | rightParen => cases started
  | quote =>
    cases started
    cases closes with
    | quote phrase quoted after =>
      exact Closes.cons (.quote span phrase) ⟨within, quoted⟩ after
  | atom => exact leaf .atom started
  | integer => exact leaf .integer started
  | float => exact leaf .float started
  | string => exact leaf .string started
  | endOfInput => cases started
  | error => exact leaf .error started

/-- What is left to wait for before a token, given what is left after it. -/
theorem closes_of_take {limit : Nat} {source : List UInt8} {nest after : Nest} {token : Token}
    {workspace workspace' : Workspace} {rest : List Token}
    (taken : nest.take limit source token workspace = .ok after workspace')
    (closes : Closes limit after.frames rest) : Closes limit nest.frames (token :: rest) := by
  by_cases right : token.kind = .rightParen
  · obtain ⟨kind, span⟩ := token
    obtain ⟨frames, forms⟩ := nest
    cases right
    match frames with
    | [] => cases taken
    | .list opening items :: outer =>
      obtain ⟨_, _, -, taken⟩ := Build.bind_eq_ok taken
      obtain ⟨_, _, -, placed⟩ := Build.bind_eq_ok taken
      exact Closes.list [] trivial (closes_place placed closes)
    | .quote mark :: outer =>
      have started : startForm limit source ⟨.quote mark :: outer, forms⟩ ⟨.rightParen, span⟩
          workspace = .ok after workspace' := taken
      exact closes_of_startForm started closes
  · rw [take_of_ne right] at taken
    exact closes_of_startForm taken closes

/-- The tokens that a nest takes up to the end of the input are what its frames wait for. -/
theorem closes_of_run {limit : Nat} {source : List UInt8} {nest : Nest} {tokens : List Token}
    {final : Token} {forms : List Form} {workspace workspace' : Workspace}
    (inner : ∀ token ∈ tokens, token.kind ≠ .endOfInput) (last : final.kind = .endOfInput)
    (complete : nest.run limit source (tokens ++ [final]) workspace = .ok forms workspace') :
    Closes limit nest.frames tokens := by
  induction tokens generalizing nest workspace with
  | nil =>
    rw [List.nil_append, run, if_pos last] at complete
    obtain ⟨frames, built⟩ := nest
    match frames with
    | [] => exact Closes.top [] trivial
    | .list opening items :: outer => cases complete
    | .quote mark :: outer =>
      simp only [finish] at complete
      split at complete
      · cases complete
      · cases complete
  | cons token tokens ih =>
    have proper := inner token List.mem_cons_self
    simp only [List.cons_append, run, if_neg proper] at complete
    obtain ⟨after, between, taken, complete⟩ := Build.bind_eq_ok complete
    exact closes_of_take taken
      (ih (fun token member => inner token (List.mem_cons_of_mem _ member)) complete)

end Nest

end LispReader

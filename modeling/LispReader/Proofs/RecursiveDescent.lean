import LispReader.Nest
import LispReader.Proofs.Phrase

/-!
# Recursive descent

A row of tokens is read by recursive descent: a form starts with a token and is read with all that
is inside it before anything else, and how many lists and quotes are around it is counted on the way
down. What cannot be read is refused at the first token that fits nowhere. From the tokens of a
phrase that is not nested too deeply the form of the phrase is read, contents before container.
-/

namespace LispReader

/-- What is read from the front of a row of tokens, and what is left of the row. -/
structure Front (α : Type) (tokens : List Token) where
  value : α
  rest : List Token
  length_rest_le : rest.length ≤ tokens.length

namespace Descent

/-- Why a form inside `depth` others cannot start at the end of the input. -/
def endFault (limit depth : Nat) (location : Span) : ReadError :=
  if limit < depth then .tooDeep location limit else .unexpectedEnd location

mutual

/-- Reads the form that starts with `token`, inside `depth` others. Where the tokens stop short of
the end of the input, the end of the source stands in. -/
def form (limit : Nat) (source : List UInt8) (depth : Nat) (token : Token) (tokens : List Token) :
    Build (Front Form tokens) :=
  if limit < depth then throw (.tooDeep token.span limit)
  else
    match token.kind with
    | .leftParen => do
      let inner ← items limit source (depth + 1) token.span tokens
      Build.reserveReferences inner.value.1.length
      Build.reserveForm
      return ⟨.list (token.span.cover inner.value.2) inner.value.1, inner.rest,
        inner.length_rest_le⟩
    | .quote =>
      match tokens with
      | [] => throw (endFault limit (depth + 1) (Token.endOfInput source.length).span)
      | next :: others => do
        let quoted ← form limit source (depth + 1) next others
        Build.reserveForm
        return ⟨.quote (token.span.cover quoted.value.span) quoted.value, quoted.rest,
          Nat.le_succ_of_le quoted.length_rest_le⟩
    | .rightParen => throw (.unbalanced token.span)
    | .endOfInput => throw (.unexpectedEnd token.span)
    | .atom | .integer | .float | .string | .error => do
      let leaf ← Build.leaf token source
      return ⟨leaf, tokens, Nat.le_refl _⟩
  termination_by (tokens.length, 1)

/-- Reads the items of a list, inside `depth` others, and the right parenthesis after them. -/
def items (limit : Nat) (source : List UInt8) (depth : Nat) (opening : Span)
    (tokens : List Token) : Build (Front (List Form × Span) tokens) :=
  match tokens with
  | [] => throw (.unclosed opening)
  | token :: others =>
    if token.kind = .rightParen then
      return ⟨([], token.span), others, Nat.le_succ _⟩
    else if token.kind = .endOfInput then throw (.unclosed opening)
    else do
      let first ← form limit source depth token others
      let more ← items limit source depth opening first.rest
      return ⟨(first.value :: more.value.1, more.value.2), more.rest,
        Nat.le_succ_of_le (Nat.le_trans more.length_rest_le first.length_rest_le)⟩
  termination_by (tokens.length, 0)
  decreasing_by
    · exact .left _ _ (Nat.lt_succ_self _)
    · exact .left _ _ (Nat.lt_succ_of_le first.length_rest_le)

end

/-- Reads forms up to the end of the input. -/
def forms (limit : Nat) (source : List UInt8) (tokens : List Token) : Build (List Form) :=
  match tokens with
  | [] => return []
  | token :: others =>
    if token.kind = .endOfInput then return []
    else if token.kind = .rightParen then throw (.unbalanced token.span)
    else do
      let first ← form limit source 0 token others
      let more ← forms limit source first.rest
      return first.value :: more
  termination_by tokens.length
  decreasing_by exact Nat.lt_succ_of_le first.length_rest_le

/-- Reads the forms of a source, of which there must be one. -/
def body (limit : Nat) (source : List UInt8) (tokens : List Token) : Build (List Form) := do
  let forms ← forms limit source tokens
  if forms.isEmpty then throw .empty
  Build.reserveReferences forms.length
  return forms

/-- Where too many forms are around, nothing else is looked at. -/
theorem form_of_deep {limit : Nat} {source : List UInt8} {depth : Nat} {token : Token}
    {tokens : List Token} (deep : limit < depth) :
    form limit source depth token tokens = throw (.tooDeep token.span limit) := by
  rw [form.eq_def, if_pos deep]

/-- No form starts at the end of the input. -/
theorem form_endOfInput {limit : Nat} {source : List UInt8} {depth : Nat} {token : Token}
    {tokens : List Token} (ending : token.kind = .endOfInput) :
    form limit source depth token tokens = throw (endFault limit depth token.span) := by
  by_cases deep : limit < depth
  · rw [form_of_deep deep, endFault, if_pos deep]
  · obtain ⟨kind, span⟩ := token
    cases ending
    rw [form.eq_def, if_neg deep]
    exact congrArg throw (if_neg deep).symm

end Descent

/-! ## Phrases -/

namespace Phrase

mutual

/-- Builds the form of a phrase: contents first, then the form itself. Nothing is refused. -/
def build (source : List UInt8) : Phrase → Build Form
  | .leaf kind span => Build.leaf ⟨kind.tokenKind, span⟩ source
  | .list opening items closing => do
    let forms ← buildAll source items
    Build.reserveReferences forms.length
    Build.reserveForm
    return .list (opening.cover closing) forms
  | .quote mark quoted => do
    let form ← quoted.build source
    Build.reserveForm
    return .quote (mark.cover form.span) form

/-- Builds the forms of phrases one after the other. -/
def buildAll (source : List UInt8) : List Phrase → Build (List Form)
  | [] => return []
  | phrase :: rest => do
    let form ← phrase.build source
    let forms ← buildAll source rest
    return form :: forms

end

end Phrase

namespace Descent

variable {β : Type} {limit : Nat}

mutual

/-- From the tokens of a phrase its form is built, and what comes after them is left. -/
theorem form_tokens (source : List UInt8) {depth : Nat} (phrase : Phrase) {first : Token}
    {inner : List Token} (parts : phrase.tokens = first :: inner) (rest : List Token)
    (within : phrase.Within limit depth) (next : Form → List Token → Build β) :
    (form limit source depth first (inner ++ rest) >>= fun read => next read.value read.rest) =
      (phrase.build source >>= fun form => next form rest) := by
  have shallow := Nat.not_lt_of_le within.depth_le
  match phrase with
  | .leaf kind span =>
    cases parts
    rw [form.eq_def, if_neg shallow, Phrase.build]
    cases kind <;> simp only [LeafKind.tokenKind, bind_assoc, pure_bind, List.nil_append]
  | .list opening phrases closing =>
    cases parts
    rw [form.eq_def, if_neg shallow, Phrase.build, List.append_assoc]
    simp only [bind_assoc, pure_bind]
    exact items_tokens source phrases opening closing rest within.2 fun forms closing rest => do
      Build.reserveReferences forms.length
      Build.reserveForm
      next (.list (opening.cover closing) forms) rest
  | .quote mark quoted =>
    cases parts
    obtain ⟨token, others, parts, -⟩ := quoted.tokens_eq_cons
    rw [form.eq_def, if_neg shallow, Phrase.build, parts]
    simp only [List.cons_append, bind_assoc, pure_bind]
    exact form_tokens source quoted parts rest within.2 fun form rest => do
      Build.reserveForm
      next (.quote (mark.cover form.span) form) rest

/-- From the tokens of phrases and a right parenthesis the items of a list are built. -/
theorem items_tokens (source : List UInt8) {depth : Nat} (phrases : List Phrase)
    (opening closing : Span) (rest : List Token) (within : Phrase.WithinAll limit depth phrases)
    (next : List Form → Span → List Token → Build β) :
    (items limit source depth opening (Phrase.tokensAll phrases ++ ⟨.rightParen, closing⟩ :: rest)
        >>= fun inner => next inner.value.1 inner.value.2 inner.rest) =
      (Phrase.buildAll source phrases >>= fun forms => next forms closing rest) := by
  match phrases with
  | [] =>
    rw [items.eq_def]
    rfl
  | phrase :: phrases =>
    obtain ⟨token, others, parts, starts⟩ := phrase.tokens_eq_cons
    have proper := Phrase.ne_of_opens starts
    rw [Phrase.tokensAll, parts, List.append_assoc, List.cons_append, items.eq_def]
    simp only [if_neg proper.1, if_neg proper.2, bind_assoc, pure_bind, Phrase.buildAll]
    -- What is done with the first form is to read the others and put it in front of them.
    refine (form_tokens source phrase parts _ within.1 fun form rest => do
      let more ← items limit source depth opening rest
      next (form :: more.value.1) more.value.2 more.rest).trans ?_
    congr 1
    funext form
    exact items_tokens source phrases opening closing rest within.2 fun forms =>
      next (form :: forms)

end

end Descent

end LispReader

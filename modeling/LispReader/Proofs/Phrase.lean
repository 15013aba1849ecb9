import LispReader.Token

/-!
# The grammar of forms

A phrase is a derivation of the grammar of forms: a leaf, a list of phrases between parentheses, or
an apostrophe before a phrase. Written out, a phrase is a row of tokens, and a row of tokens is
written by at most one row of phrases. How deep a phrase is nested counts the lists and quotes
around each of its parts.
-/

namespace LispReader

/-- The kinds of token that are forms of their own. -/
inductive LeafKind where
  | atom
  | integer
  | float
  | string
  | error
  deriving DecidableEq

namespace LeafKind

/-- The kind of the token of a leaf. -/
def tokenKind : LeafKind → TokenKind
  | .atom => .atom
  | .integer => .integer
  | .float => .float
  | .string => .string
  | .error => .error

/-- Different kinds of leaf have different tokens. -/
theorem tokenKind_inj {first second : LeafKind} :
    first.tokenKind = second.tokenKind ↔ first = second := by
  cases first <;> cases second <;> decide

end LeafKind

/-- A derivation of one form from tokens. -/
inductive Phrase where
  /-- One token that is a form of its own. -/
  | leaf (kind : LeafKind) (span : Span)
  /-- Phrases between two parentheses. -/
  | list (opening : Span) (items : List Phrase) (closing : Span)
  /-- A phrase after an apostrophe. -/
  | quote (mark : Span) (quoted : Phrase)

namespace Phrase

mutual

/-- The tokens of a phrase, in order. -/
def tokens : Phrase → List Token
  | .leaf kind span => [⟨kind.tokenKind, span⟩]
  | .list opening items closing =>
    ⟨.leftParen, opening⟩ :: (tokensAll items ++ [⟨.rightParen, closing⟩])
  | .quote mark quoted => ⟨.quote, mark⟩ :: quoted.tokens

/-- The tokens of phrases that follow each other. -/
def tokensAll : List Phrase → List Token
  | [] => []
  | phrase :: rest => phrase.tokens ++ tokensAll rest

end

mutual

/-- Whether every part of a phrase lies inside at most `limit` lists and quotes, `depth` of which
are around the phrase itself. -/
def Within (limit depth : Nat) : Phrase → Prop
  | .leaf _ _ => depth ≤ limit
  | .list _ items _ => depth ≤ limit ∧ WithinAll limit (depth + 1) items
  | .quote _ quoted => depth ≤ limit ∧ quoted.Within limit (depth + 1)

/-- Whether this holds of every phrase of a list. -/
def WithinAll (limit depth : Nat) : List Phrase → Prop
  | [] => True
  | phrase :: rest => phrase.Within limit depth ∧ WithinAll limit depth rest

end

/-- A phrase lies itself inside at most `limit` lists and quotes. -/
theorem Within.depth_le {limit depth : Nat} {phrase : Phrase}
    (within : phrase.Within limit depth) : depth ≤ limit := by
  cases phrase with
  | leaf kind span => exact within
  | list opening items closing => exact within.1
  | quote mark quoted => exact within.1

/-- Phrases are nested no deeper than `limit` if each of them is. -/
theorem withinAll_iff {limit depth : Nat} {phrases : List Phrase} :
    WithinAll limit depth phrases ↔ ∀ phrase ∈ phrases, phrase.Within limit depth := by
  induction phrases with
  | nil => simp [WithinAll]
  | cons phrase rest ih => rw [WithinAll, ih, List.forall_mem_cons]

/-! ## Tokens of phrases -/

/-- Phrases after others are written after them. -/
theorem tokensAll_append (first second : List Phrase) :
    tokensAll (first ++ second) = tokensAll first ++ tokensAll second := by
  induction first with
  | nil => rfl
  | cons phrase rest ih => rw [List.cons_append, tokensAll, ih, tokensAll, List.append_assoc]

/-- Whether a form starts with a token of the kind. -/
def opens : TokenKind → Bool
  | .leftParen | .quote | .atom | .integer | .float | .string | .error => true
  | .rightParen | .endOfInput => false

/-- A token with which a form starts is neither a right parenthesis nor the end of the input. -/
theorem ne_of_opens {kind : TokenKind} (starts : opens kind = true) :
    kind ≠ .rightParen ∧ kind ≠ .endOfInput := by
  cases kind <;> simp_all [opens]

/-- A phrase starts with a token with which a form starts. -/
theorem tokens_eq_cons (phrase : Phrase) :
    ∃ first rest, phrase.tokens = first :: rest ∧ opens first.kind = true := by
  cases phrase with
  | leaf kind span => exact ⟨_, [], rfl, by cases kind <;> rfl⟩
  | list opening items closing => exact ⟨_, _, rfl, rfl⟩
  | quote mark quoted => exact ⟨_, _, rfl, rfl⟩

mutual

/-- No token of a phrase is the end of the input. -/
theorem kind_ne_endOfInput_of_mem (phrase : Phrase) {token : Token}
    (member : token ∈ phrase.tokens) : token.kind ≠ .endOfInput := by
  match phrase with
  | .leaf kind span =>
    rw [tokens, List.mem_singleton] at member
    rw [member]
    cases kind <;> simp [LeafKind.tokenKind]
  | .list opening items closing =>
    simp only [tokens, List.mem_cons, List.mem_append, List.not_mem_nil, or_false] at member
    rcases member with rfl | inside | rfl
    · simp
    · exact kind_ne_endOfInput_of_mem_all items inside
    · simp
  | .quote mark quoted =>
    rcases List.mem_cons.mp member with rfl | inside
    · simp
    · exact kind_ne_endOfInput_of_mem quoted inside

/-- No token of phrases is the end of the input. -/
theorem kind_ne_endOfInput_of_mem_all (phrases : List Phrase) {token : Token}
    (member : token ∈ tokensAll phrases) : token.kind ≠ .endOfInput := by
  match phrases with
  | [] => cases member
  | phrase :: rest =>
    rcases List.mem_append.mp member with first | later
    · exact kind_ne_endOfInput_of_mem phrase first
    · exact kind_ne_endOfInput_of_mem_all rest later

end

/-! ## Uniqueness -/

/-- Whether no form starts with the first token. -/
def Stops (tokens : List Token) : Prop :=
  ∀ token, tokens.head? = some token → opens token.kind = false

mutual

/-- A row of tokens starts with at most one phrase. -/
theorem tokens_append_inj (first second : Phrase) {rest others : List Token}
    (same : first.tokens ++ rest = second.tokens ++ others) : first = second ∧ rest = others := by
  match first, second with
  | .leaf kind span, .leaf kind' span' =>
    simp only [tokens, List.cons_append, List.nil_append, List.cons.injEq, Token.mk.injEq,
      LeafKind.tokenKind_inj] at same
    obtain ⟨⟨rfl, rfl⟩, rfl⟩ := same
    exact ⟨rfl, rfl⟩
  | .list opening items closing, .list opening' items' closing' =>
    simp only [tokens, List.cons_append, List.append_assoc, List.cons.injEq, Token.mk.injEq,
      List.nil_append] at same
    obtain ⟨⟨-, rfl⟩, inside⟩ := same
    obtain ⟨rfl, after⟩ := tokensAll_append_inj items items' inside
      (fun token found => by cases found; rfl) (fun token found => by cases found; rfl)
    simp only [List.cons.injEq, Token.mk.injEq] at after
    obtain ⟨⟨-, rfl⟩, rfl⟩ := after
    exact ⟨rfl, rfl⟩
  | .quote mark quoted, .quote mark' quoted' =>
    simp only [tokens, List.cons_append, List.cons.injEq, Token.mk.injEq] at same
    obtain ⟨⟨-, rfl⟩, inside⟩ := same
    obtain ⟨rfl, rfl⟩ := tokens_append_inj quoted quoted' inside
    exact ⟨rfl, rfl⟩
  | .leaf kind span, .list opening items closing =>
    cases kind <;> simp [tokens, LeafKind.tokenKind] at same
  | .leaf kind span, .quote mark quoted =>
    cases kind <;> simp [tokens, LeafKind.tokenKind] at same
  | .list opening items closing, .leaf kind span =>
    cases kind <;> simp [tokens, LeafKind.tokenKind] at same
  | .quote mark quoted, .leaf kind span =>
    cases kind <;> simp [tokens, LeafKind.tokenKind] at same
  | .list opening items closing, .quote mark quoted => simp [tokens] at same
  | .quote mark quoted, .list opening items closing => simp [tokens] at same

/-- A row of tokens starts with at most one row of phrases up to a token that starts no form. -/
theorem tokensAll_append_inj (first second : List Phrase) {rest others : List Token}
    (same : tokensAll first ++ rest = tokensAll second ++ others) (stops : Stops rest)
    (stops' : Stops others) : first = second ∧ rest = others := by
  match first, second with
  | [], [] => exact ⟨rfl, same⟩
  | phrase :: phrases, phrase' :: phrases' =>
    simp only [tokensAll, List.append_assoc] at same
    obtain ⟨rfl, after⟩ := tokens_append_inj phrase phrase' same
    obtain ⟨rfl, rfl⟩ := tokensAll_append_inj phrases phrases' after stops stops'
    exact ⟨rfl, rfl⟩
  | [], phrase :: phrases =>
    obtain ⟨token, tail, found, starts⟩ := tokens_eq_cons phrase
    have front : rest = phrase.tokens ++ tokensAll phrases ++ others := same
    have head := stops token (by rw [front, found]; rfl)
    rw [starts] at head
    cases head
  | phrase :: phrases, [] =>
    obtain ⟨token, tail, found, starts⟩ := tokens_eq_cons phrase
    have front : others = phrase.tokens ++ tokensAll phrases ++ rest := same.symm
    have head := stops' token (by rw [front, found]; rfl)
    rw [starts] at head
    cases head

end

end Phrase

end LispReader

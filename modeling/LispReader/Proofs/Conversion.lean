import LispReader.Proofs.Descent

/-!
# What a phrase is read as

Apart from the arena that pays for it, building the form of a phrase is a function of the source
and of the names known before: it gives the form, the names known afterwards, and the findings made
on the way. Only the arena can stop it, and never when the arena has room for a bound that the
tokens of the phrase give.
-/

namespace LispReader

namespace SymbolTable

/-- Whether `later` knows every name of `table` by the same symbol. -/
def Extends (later table : SymbolTable) : Prop :=
  ∀ symbol name, table.resolve? symbol = some name → later.resolve? symbol = some name

/-- A table knows its own names. -/
theorem Extends.refl (table : SymbolTable) : table.Extends table := fun _ _ known => known

/-- What was known stays known. -/
theorem Extends.trans {first second third : SymbolTable} (late : third.Extends second)
    (early : second.Extends first) : third.Extends first :=
  fun symbol name known => late symbol name (early symbol name known)

/-- Interning forgets no name. -/
theorem extends_intern (table : SymbolTable) (name : String) :
    (table.intern name).2.Extends table :=
  fun _ _ known => resolve?_intern_of_resolve? known name

end SymbolTable

/-- What a step reads, the names known after it, and what it found on the way. -/
structure Converted (α : Type) where
  value : α
  symbols : SymbolTable
  findings : List Finding

namespace LeafKind

/-- What the lexeme of a leaf is read as. -/
def convert (kind : LeafKind) (span : Span) (lexeme : List UInt8) (symbols : SymbolTable) :
    Converted Form :=
  match kind with
  | .atom =>
    match Text.ofBytes? lexeme with
    | some name => ⟨.symbol span (symbols.intern name).1, (symbols.intern name).2, []⟩
    | none => ⟨.error span, symbols, [⟨.symbolNotUtf8, span⟩]⟩
  | .integer =>
    match Numeral.readInt64? lexeme with
    | some value => ⟨.integer span value, symbols, []⟩
    | none => ⟨.error span, symbols, [⟨.integerOutOfRange, span⟩]⟩
  | .float =>
    match Binary64.read? lexeme with
    | some value => ⟨.float span value, symbols, []⟩
    | none => ⟨.error span, symbols, [⟨.floatNotDecimal, span⟩]⟩
  | .string => ⟨.string span (Escape.literalContents lexeme), symbols, []⟩
  | .error => ⟨.error span, symbols, []⟩

/-- Reading a leaf forgets no name. -/
theorem extends_convert (kind : LeafKind) (span : Span) (lexeme : List UInt8)
    (symbols : SymbolTable) : (kind.convert span lexeme symbols).symbols.Extends symbols := by
  cases kind with
  | atom =>
    simp only [convert]
    split
    · exact symbols.extends_intern _
    · exact .refl symbols
  | integer | float =>
    simp only [convert]
    split <;> exact .refl symbols
  | string | error => exact .refl symbols

end LeafKind

namespace Phrase

mutual

/-- What a phrase is read as, given the names known before. -/
def convert (source : List UInt8) (symbols : SymbolTable) : Phrase → Converted Form
  | .leaf kind span => kind.convert span (span.slice source) symbols
  | .list opening items closing =>
    let inner := convertAll source symbols items
    ⟨.list (opening.cover closing) inner.value, inner.symbols, inner.findings⟩
  | .quote mark quoted =>
    let inner := quoted.convert source symbols
    ⟨.quote (mark.cover inner.value.span) inner.value, inner.symbols, inner.findings⟩

/-- What phrases are read as, one after the other. -/
def convertAll (source : List UInt8) (symbols : SymbolTable) : List Phrase → Converted (List Form)
  | [] => ⟨[], symbols, []⟩
  | phrase :: rest =>
    let first := phrase.convert source symbols
    let others := convertAll source first.symbols rest
    ⟨first.value :: others.value, others.symbols, first.findings ++ others.findings⟩

end

/-- As many forms are read as there are phrases. -/
theorem length_convertAll (source : List UInt8) (symbols : SymbolTable) (phrases : List Phrase) :
    (convertAll source symbols phrases).value.length = phrases.length := by
  induction phrases generalizing symbols with
  | nil => rfl
  | cons phrase rest ih => simp only [convertAll, List.length_cons, ih]

/-- Phrases are read as a form or more. -/
theorem convertAll_ne_nil (source : List UInt8) (symbols : SymbolTable) {phrases : List Phrase}
    (nonempty : phrases ≠ []) : (convertAll source symbols phrases).value ≠ [] := by
  intro none_read
  have count := length_convertAll source symbols phrases
  rw [none_read] at count
  exact nonempty (List.eq_nil_of_length_eq_zero count.symm)

mutual

/-- Reading a phrase forgets no name. -/
theorem extends_convert (source : List UInt8) (symbols : SymbolTable) (phrase : Phrase) :
    (phrase.convert source symbols).symbols.Extends symbols := by
  match phrase with
  | .leaf kind span => exact kind.extends_convert span _ symbols
  | .list opening items closing => exact extends_convertAll source symbols items
  | .quote mark quoted => exact extends_convert source symbols quoted

/-- Reading phrases forgets no name. -/
theorem extends_convertAll (source : List UInt8) (symbols : SymbolTable) (phrases : List Phrase) :
    (convertAll source symbols phrases).symbols.Extends symbols := by
  match phrases with
  | [] => exact .refl symbols
  | phrase :: rest =>
    have first := extends_convert source symbols phrase
    exact (extends_convertAll source (phrase.convert source symbols).symbols rest).trans first

end

mutual

/-- A bound on the bytes that the form of a phrase takes in an arena, padding included. -/
def cost : Phrase → Nat
  | .leaf _ span => span.length + 39
  | .list _ items _ => costAll items + 8 * items.length + 46
  | .quote _ quoted => quoted.cost + 39

/-- A bound on the bytes that the forms of phrases take in an arena, references not counted. -/
def costAll : List Phrase → Nat
  | [] => 0
  | phrase :: rest => phrase.cost + costAll rest

end

end Phrase

namespace Build

variable {α β : Type}

/-- A step that reads what `result` says and can only be stopped by the arena, which does not happen
if `cost` bytes are left. -/
def Converts (step : Build α) (cost : Nat) (result : SymbolTable → Converted α) : Prop :=
  ∀ workspace,
    (∃ arena, step workspace = .ok (result workspace.symbols).value
        ⟨arena, (result workspace.symbols).symbols,
          workspace.findings ++ (result workspace.symbols).findings⟩ ∧
      arena.capacity = workspace.arena.capacity ∧
      arena.offset.toNat ≤ workspace.arena.offset.toNat + cost) ∨
    ∃ problem stopped, step workspace = .error (.arena problem) stopped ∧
      workspace.arena.capacity.toNat < workspace.arena.offset.toNat + cost

namespace Converts

/-- Doing nothing reads its result. -/
theorem pure (value : α) : Converts (Pure.pure value) 0 (fun symbols => ⟨value, symbols, []⟩) := by
  intro workspace
  refine .inl ⟨workspace.arena, ?_, rfl, Nat.le_refl _⟩
  rw [List.append_nil]
  rfl

/-- One step after another costs what both cost together. -/
theorem bind {first : Build α} {second : α → Build β} {cost cost' : Nat}
    {result : SymbolTable → Converted α} {result' : SymbolTable → SymbolTable → Converted β}
    (reads : Converts first cost result)
    (goes_on : ∀ symbols, Converts (second (result symbols).value) cost' (result' symbols)) :
    Converts (first >>= second) (cost + cost') (fun symbols =>
      let inner := result symbols
      let outer := result' symbols inner.symbols
      ⟨outer.value, outer.symbols, inner.findings ++ outer.findings⟩) := by
  intro workspace
  rcases reads workspace with ⟨arena, ran, kept, taken⟩ | ⟨problem, stopped, ran, full⟩
  · rcases goes_on workspace.symbols ⟨arena, (result workspace.symbols).symbols,
      workspace.findings ++ (result workspace.symbols).findings⟩ with
      ⟨arena', ran', kept', taken'⟩ | ⟨problem, stopped, ran', full⟩
    · refine .inl ⟨arena', ?_, kept'.trans kept, by simp only at taken'; omega⟩
      rw [bind_of_ok ran, ran', List.append_assoc]
    · refine .inr ⟨problem, stopped, by rw [bind_of_ok ran, ran'], ?_⟩
      simp only at full
      rw [kept] at full
      omega
  · exact .inr ⟨problem, stopped, bind_of_error ran _, by omega⟩

/-- A bound may be raised, and what is read may be said in other words. -/
theorem weaken {step : Build α} {cost cost' : Nat} {result result' : SymbolTable → Converted α}
    (reads : Converts step cost result) (more : cost ≤ cost')
    (same : ∀ symbols, result symbols = result' symbols) : Converts step cost' result' := by
  intro workspace
  rw [← same]
  rcases reads workspace with ⟨arena, ran, kept, taken⟩ | ⟨problem, stopped, ran, full⟩
  · exact .inl ⟨arena, ran, kept, by omega⟩
  · exact .inr ⟨problem, stopped, ran, by omega⟩

/-- A result may be wrapped for nothing. -/
theorem map {step : Build α} {cost : Nat} {result : SymbolTable → Converted α}
    (reads : Converts step cost result) (wrap : α → β) :
    Converts (do let value ← step; return wrap value) cost (fun symbols =>
      ⟨wrap (result symbols).value, (result symbols).symbols, (result symbols).findings⟩) := by
  refine (reads.bind fun symbols => pure (wrap (result symbols).value)).weaken
    (Nat.le_refl _) fun symbols => ?_
  simp only [List.append_nil]

/-- Paying costs the bytes and at most the padding. -/
theorem reserve (size : UInt64) {align : UInt64} (proper : Arena.isPowerOfTwo align = true) :
    Converts (reserve size align) (align.toNat - 1 + size.toNat)
      (fun symbols => ⟨(), symbols, []⟩) := by
  intro workspace
  rcases Arena.allocate_bound workspace.arena size proper with
    ⟨address, arena, granted, kept, taken⟩ | ⟨problem, refused, full⟩
  · refine .inl ⟨arena, ?_, kept, by omega⟩
    simp only [Build.reserve, granted, List.append_nil]
  · refine .inr ⟨problem, workspace, ?_, by omega⟩
    simp only [Build.reserve, refused]

/-- What is paid for before it is given costs no more than that. -/
theorem reserve_then (size : UInt64) {align : UInt64} (proper : Arena.isPowerOfTwo align = true)
    (value : α) : Converts (do Build.reserve size align; return value)
      (align.toNat - 1 + size.toNat) (fun symbols => ⟨value, symbols, []⟩) :=
  (reserve size proper).map fun _ => value

/-- A form costs its bytes and at most the padding to a word. -/
theorem reserveForm : Converts reserveForm 39 (fun symbols => ⟨(), symbols, []⟩) :=
  reserve formBytes (by decide)

/-- A form that is paid for before it is given costs no more than that. -/
theorem reserveForm_then (value : α) : Converts (do Build.reserveForm; return value) 39
    (fun symbols => ⟨value, symbols, []⟩) :=
  reserveForm.map fun _ => value

/-- A row of references costs its bytes and at most the padding to a word. -/
theorem reserveReferences (count : Nat) :
    Converts (reserveReferences count) (8 * count + 7) (fun symbols => ⟨(), symbols, []⟩) := by
  refine (reserve _ (by decide)).weaken ?_ fun _ => rfl
  have small : (referenceBytes * count).toUInt64.toNat ≤ 8 * count := by
    simp only [referenceBytes, Nat.toUInt64, UInt64.toNat_ofNat']
    exact Nat.mod_le _ _
  have word : wordAlignment.toNat = 8 := rfl
  omega

/-- A name is interned for nothing. -/
theorem intern (name : String) : Converts (intern name) 0
    (fun symbols => ⟨(symbols.intern name).1, (symbols.intern name).2, []⟩) := by
  intro workspace
  refine .inl ⟨workspace.arena, ?_, rfl, Nat.le_refl _⟩
  rw [List.append_nil]
  rfl

/-- A token without a value is reported for nothing. -/
theorem refuse (cause : Cause) (span : Span) : Converts (refuse cause span) 0
    (fun symbols => ⟨.error span, symbols, [⟨cause, span⟩]⟩) :=
  fun workspace => .inl ⟨workspace.arena, rfl, rfl, Nat.le_refl _⟩

/-- Only the contents of a string literal cost anything, and no more than the literal has bytes. -/
theorem content (kind : LeafKind) (span : Span) (lexeme : List UInt8) :
    Converts (content kind span lexeme) lexeme.length (kind.convert span lexeme) := by
  cases kind with
  | atom =>
    simp only [Build.content, atom]
    cases found : Text.ofBytes? lexeme with
    | none =>
      exact (refuse _ span).weaken (Nat.zero_le _) fun _ => by simp only [LeafKind.convert, found]
    | some name =>
      exact ((intern name).map (Form.symbol span)).weaken (Nat.zero_le _)
        fun _ => by simp only [LeafKind.convert, found]
  | integer =>
    simp only [Build.content, integer]
    cases found : Numeral.readInt64? lexeme with
    | none =>
      exact (refuse _ span).weaken (Nat.zero_le _) fun _ => by simp only [LeafKind.convert, found]
    | some value =>
      exact (pure _).weaken (Nat.zero_le _) fun _ => by simp only [LeafKind.convert, found]
  | float =>
    simp only [Build.content, float]
    cases found : Binary64.read? lexeme with
    | none =>
      exact (refuse _ span).weaken (Nat.zero_le _) fun _ => by simp only [LeafKind.convert, found]
    | some value =>
      exact (pure _).weaken (Nat.zero_le _) fun _ => by simp only [LeafKind.convert, found]
  | string =>
    have shorter := Escape.length_literalContents_le lexeme
    have small : (Escape.literalContents lexeme).length.toUInt64.toNat ≤ lexeme.length := by
      simp only [Nat.toUInt64, UInt64.toNat_ofNat']
      exact Nat.le_trans (Nat.mod_le _ _) shorter
    have one : (1 : UInt64).toNat = 1 := rfl
    refine (reserve_then (Escape.literalContents lexeme).length.toUInt64 (by decide)
      (Form.string span (Escape.literalContents lexeme))).weaken ?_ fun _ => rfl
    omega
  | error => exact (pure _).weaken (Nat.zero_le _) fun _ => rfl

/-- A leaf is read from its lexeme, and costs its contents and a form. -/
theorem leaf (kind : LeafKind) (span : Span) (source : List UInt8) :
    Converts (leaf ⟨kind.tokenKind, span⟩ source) (span.length + 39)
      (kind.convert span (span.slice source)) := by
  have shorter : (span.slice source).length ≤ span.length := by
    simp only [Span.slice, List.length_take]
    omega
  rw [leaf_eq]
  refine ((content kind span _).bind fun symbols => reserveForm_then _).weaken ?_ ?_
  · omega
  · intro symbols
    simp only [List.append_nil]

mutual

/-- The form of a phrase is what the phrase is read as. -/
theorem build (source : List UInt8) (phrase : Phrase) :
    Converts (phrase.build source) phrase.cost (fun symbols => phrase.convert source symbols) := by
  match phrase with
  | .leaf kind span => exact leaf kind span source
  | .list opening items closing =>
    simp only [Phrase.build]
    have references (symbols : SymbolTable) : Converts
        (Build.reserveReferences (Phrase.convertAll source symbols items).value.length)
        (8 * items.length + 7) (fun symbols => ⟨(), symbols, []⟩) := by
      rw [Phrase.length_convertAll]
      exact reserveReferences items.length
    refine ((buildAll source items).bind fun symbols =>
      (references symbols).bind fun _ => reserveForm_then _).weaken ?_ ?_
    · simp only [Phrase.cost]
      omega
    · intro symbols
      simp only [Phrase.convert, List.append_nil]
  | .quote mark quoted =>
    simp only [Phrase.build]
    refine ((build source quoted).bind fun _ => reserveForm_then _).weaken (Nat.le_refl _) ?_
    intro symbols
    simp only [Phrase.convert, List.append_nil]

/-- The forms of phrases are what the phrases are read as. -/
theorem buildAll (source : List UInt8) (phrases : List Phrase) :
    Converts (Phrase.buildAll source phrases) (Phrase.costAll phrases)
      (fun symbols => Phrase.convertAll source symbols phrases) := by
  match phrases with
  | [] => exact pure _
  | phrase :: rest =>
    simp only [Phrase.buildAll]
    refine weaken (bind (build source phrase) fun symbols =>
      (buildAll source rest).map (List.cons _)) (Nat.le_refl _) fun symbols => rfl

end

end Converts

end Build

end LispReader

import LispReader.Proofs.Reading

/-!
# The size of a batch

How many tokens are scanned at a time only decides how far the scanner is ahead of the forms, and so
where its findings come among the others. The tree or the fault, the arena and the names are the
same for every size, and so are the findings about tokens that have no value, in their order. When
the read goes through every finding has been made, so that only the order can differ.
-/

namespace LispReader

/-! ## Diagnostics about tokens without a value -/

namespace Cause

/-- A message about a stray byte starts with its own words. -/
theorem head?_message_strayByte (byte : UInt8) :
    (strayByte byte).message.toList.head? = some 'u' := by
  have text : (strayByte byte).message = "unexpected byte " ++ byteNumeral byte ++ " (" ++
      Text.quotedChar (Char.ofNat byte.toNat) ++ ")" := rfl
  have first : "unexpected byte ".toList.head? = some 'u' := by decide +kernel
  simp only [text, String.toList_append, List.head?_append, first, Option.some_or]

end Cause

namespace Diagnostic

/-- What is said of tokens that have no value. -/
def conversionMessages : List String :=
  [Cause.symbolNotUtf8, .integerOutOfRange, .floatNotDecimal].map Cause.message

/-- Whether a diagnostic says that a token has no value. -/
def isConversion (diagnostic : Diagnostic) : Bool :=
  conversionMessages.contains diagnostic.message

end Diagnostic

namespace Finding

/-- The scanner never says what is said of tokens that have no value. -/
theorem isConversion_diagnostic (finding : Finding) :
    finding.diagnostic.isConversion = !finding.cause.isLexical := by
  obtain ⟨cause, span⟩ := finding
  change Diagnostic.conversionMessages.contains cause.message = !cause.isLexical
  cases cause with
  | strayByte byte =>
    have others : ∀ message ∈ Diagnostic.conversionMessages,
        message.toList.head? ≠ some 'u' := by decide +kernel
    rw [Cause.isLexical, Bool.not_true, Bool.eq_false_iff, ne_eq, List.contains_iff_mem]
    exact fun member => others _ member (Cause.head?_message_strayByte byte)
  | _ => decide +kernel

/-- The diagnostics about tokens without a value are those of the findings that are not lexical. -/
theorem filter_isConversion (findings : List Finding) :
    (findings.map diagnostic).filter Diagnostic.isConversion =
      (findings.filter fun finding => !finding.cause.isLexical).map diagnostic := by
  rw [List.filter_map]
  congr 2
  funext finding
  exact isConversion_diagnostic finding

/-- Findings that agree in their lexical part and in the others agree but for their order. -/
theorem perm_of_filter {first second : List Finding}
    (lexical : first.filter (fun finding => finding.cause.isLexical) =
      second.filter fun finding => finding.cause.isLexical)
    (others : first.filter (fun finding => !finding.cause.isLexical) =
      second.filter fun finding => !finding.cause.isLexical) : first.Perm second := by
  have parts (findings : List Finding) :=
    List.filter_append_perm (fun finding => finding.cause.isLexical) findings
  have same := parts second
  rw [← lexical, ← others] at same
  exact (parts first).symm.trans same

end Finding

/-! ## Batches -/

namespace Session

/-- Two sessions that differ in the size of their batches, and in what was reported before, read a
source alike: with the same result, the same arena and the same names afterwards. The same is
reported of tokens without a value, in the same order, and if the read goes through all that is
reported is the same but for its order. -/
theorem read_eq_of_tokenBatch (settings : Settings) (symbols : SymbolTable) (batch batch' : UInt32)
    (earlier earlier' : List Diagnostic) (arena : Arena) (source : List UInt8) :
    let reading := read ⟨{ settings with tokenBatch := batch }, symbols, earlier⟩ arena source
    let reading' := read ⟨{ settings with tokenBatch := batch' }, symbols, earlier'⟩ arena source
    reading'.result = reading.result ∧ reading'.arena = reading.arena ∧
      reading'.session.symbols = reading.session.symbols ∧
      ∃ reported reported', reading.session.diagnostics = earlier ++ reported ∧
        reading'.session.diagnostics = earlier' ++ reported' ∧
        reported'.filter Diagnostic.isConversion = reported.filter Diagnostic.isConversion ∧
        ((∃ tree, reading.result = .ok tree) → reported'.Perm reported) := by
  intro reading reading'
  by_cases long : Scanner.sourceLimit ≤ source.length
  · have refused : reading = _ := read_of_long _ arena long
    have refused' : reading' = _ := read_of_long _ arena long
    rw [refused, refused']
    exact ⟨rfl, rfl, rfl, [], [], (List.append_nil _).symm, (List.append_nil _).symm, rfl,
      fun _ => .refl _⟩
  -- Both readings follow the same run, which knows nothing of batches.
  have short := Nat.lt_of_not_le long
  have follows := read_follows ⟨{ settings with tokenBatch := batch }, symbols, earlier⟩ arena short
  have follows' :=
    read_follows ⟨{ settings with tokenBatch := batch' }, symbols, earlier'⟩ arena short
  have result : reading'.result = reading.result := follows'.result.trans follows.result.symm
  obtain ⟨findings, reported, others, lexical⟩ := follows.diagnostics
  obtain ⟨findings', reported', others', lexical'⟩ := follows'.diagnostics
  refine ⟨result, follows'.arena.trans follows.arena.symm,
    follows'.symbols.trans follows.symbols.symm, _, _, reported, reported', ?_, ?_⟩
  · rw [Finding.filter_isConversion, Finding.filter_isConversion, others, others']
    rfl
  · rintro ⟨tree, succeeds⟩
    have complete := lexical tree succeeds
    have complete' := lexical' tree (result.trans succeeds)
    exact (Finding.perm_of_filter (complete'.trans complete.symm)
      (others'.trans others.symm)).map Finding.diagnostic

end Session

end LispReader

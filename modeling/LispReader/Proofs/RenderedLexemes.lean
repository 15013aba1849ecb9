import LispReader.Proofs.LexicalGrammar
import LispReader.Text.Escape

/-!
# Written pieces in front of a source

Whatever comes after it, a string literal in front of a source is cut off as what it was written
for. A name and a number are so if what comes after them continues neither.
-/

namespace LispReader

/-! ## String literals -/

namespace Lexeme

/-- An escaped byte may stand before what may stand in a literal. -/
theorem Quotable.encodeByte (byte : UInt8) {rest : List UInt8} (quotable : Quotable rest) :
    Quotable (Escape.encodeByte byte ++ rest) := by
  unfold Escape.encodeByte
  split
  · exact quotable.escaped _
  split
  · exact quotable.escaped _
  split
  · exact quotable.escaped _
  split
  · exact quotable.escaped _
  · rename_i mark escape newline tab
    exact quotable.plain (by simpa using mark) (by simpa using escape)

/-- Escaped contents may stand in a literal. -/
theorem quotable_encode (contents : List UInt8) : Quotable (Escape.encode contents) := by
  induction contents with
  | nil => exact .nil
  | cons byte others ih => exact ih.encodeByte byte

end Lexeme

namespace Scanner

/-- A written literal is cut off. -/
theorem cut_literal (contents : List UInt8) (position : Nat) (rest : List UInt8) :
    cut position (Escape.literal contents ++ rest) =
      ⟨⟨.string, ⟨position, position + (Escape.literal contents).length⟩⟩, []⟩ ::
        cut (position + (Escape.literal contents).length) rest :=
  cut_token .string position ⟨_, Lexeme.quotable_encode contents, rfl⟩

/-- The lexeme of a leaf that nothing continues is cut off as that leaf. -/
theorem cut_of_admits (kind : LeafKind) {lexeme rest : List UInt8} (position : Nat)
    (admits : kind.Admits lexeme) (shaped : kind ≠ .string ∧ kind ≠ .error)
    (delimits : Byte.Delimits rest) :
    cut position (lexeme ++ rest) =
      ⟨⟨kind.tokenKind, ⟨position, position + lexeme.length⟩⟩, []⟩ ::
        cut (position + lexeme.length) rest :=
  cut_token kind.tokenKind position (LeafKind.fits_of_admits admits shaped delimits)

end Scanner

end LispReader

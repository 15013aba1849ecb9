/-!
# Sets of code points

A property of the Unicode standard is a set of code points made of long runs. It is given here by
the ascending list of the points at which membership changes, starting from outside the set, so a
code point belongs to the set exactly when the number of changes up to it is odd.
-/

namespace LispReader

/-- A set of code points, given by the ascending points at which membership changes. -/
structure CodePointSet where
  changes : List Nat

namespace CodePointSet

/-- Whether a character belongs to the set. -/
def contains (set : CodePointSet) (char : Char) : Bool :=
  (set.changes.takeWhile fun change => change ≤ char.toNat).length % 2 == 1

/-- The set with no changes is empty. -/
@[simp] theorem contains_empty (char : Char) : contains ⟨[]⟩ char = false := rfl

/-- Two changes are a run of code points, and the later ones only matter behind it. -/
theorem contains_cons_cons (first stop : Nat) (later : List Nat) (char : Char) :
    contains ⟨first :: stop :: later⟩ char = true ↔
      first ≤ char.toNat ∧ (char.toNat < stop ∨ contains ⟨later⟩ char = true) := by
  by_cases reached : first ≤ char.toNat
  · by_cases passed : stop ≤ char.toNat
    · have behind : ¬ char.toNat < stop := Nat.not_lt_of_le passed
      simp [contains, reached, passed, behind, Nat.add_assoc]
    · have inside : char.toNat < stop := Nat.lt_of_not_le passed
      simp [contains, reached, passed, inside]
  · simp [contains, reached]

end CodePointSet

end LispReader

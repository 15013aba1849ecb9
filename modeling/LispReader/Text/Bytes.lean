/-!
# Texts as bytes

Source text is a list of bytes. A text has one such list, its UTF-8 encoding, from which it can be
found again; lists that encode no text are told apart.
-/

namespace LispReader

namespace Text

/-- The bytes of a text. -/
def bytes (text : String) : List UInt8 := text.toByteArray.data.toList

/-- The text that bytes encode, if they do. -/
def ofBytes? (input : List UInt8) : Option String := String.fromUTF8? ⟨input.toArray⟩

/-- The text of ASCII bytes. -/
def ofAscii (input : List UInt8) : String :=
  String.ofList (input.map fun byte => Char.ofNat byte.toNat)

/-- Joined texts have joined bytes. -/
@[simp] theorem bytes_append (first second : String) :
    bytes (first ++ second) = bytes first ++ bytes second := by
  simp [bytes, String.toByteArray_append, ByteArray.data_append]

/-- Different texts have different bytes. -/
theorem bytes_inj {first second : String} : bytes first = bytes second ↔ first = second := by
  refine ⟨fun same => ?_, fun same => same ▸ rfl⟩
  exact String.toByteArray_inj.mp (ByteArray.ext (Array.toList_inj.mp same))

/-- The text found in bytes is the one that has them. -/
theorem ofBytes?_eq_some {input : List UInt8} {text : String} :
    ofBytes? input = some text ↔ bytes text = input := by
  unfold ofBytes? String.fromUTF8?
  split
  · rename_i valid
    rw [Option.some_inj, ← String.toByteArray_inj]
    constructor
    · intro same
      rw [bytes, ← same]
      rfl
    · intro same
      subst same
      rfl
  · rename_i invalid
    constructor
    · intro same
      cases same
    · intro same
      subst same
      exact absurd text.isValidUTF8 invalid

/-- A text is found again from its bytes. -/
theorem ofBytes?_bytes (text : String) : ofBytes? (bytes text) = some text :=
  ofBytes?_eq_some.mpr rfl

end Text

end LispReader

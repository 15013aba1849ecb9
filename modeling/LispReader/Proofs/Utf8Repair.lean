import LispReader.Text.Bytes
import LispReader.Text.Utf8

/-!
# Repaired text

The rows of bytes that the table of lead bytes allows are exactly the encodings of characters. So
repairing leaves text as it is, what was repaired is always text, and bytes are text exactly when
repairing changes nothing.
-/

namespace LispReader

namespace Utf8

/-- Whether bytes lie in the ranges one by one. -/
def Follow : List ByteRange → List UInt8 → Prop
  | [], [] => True
  | range :: ranges, byte :: bytes => range.contains byte = true ∧ Follow ranges bytes
  | _, _ => False

/-- The bytes of characters one after the other. -/
def encode (characters : List Char) : List UInt8 := characters.flatMap String.utf8EncodeChar

/-! ## Bytes that follow a lead byte -/

/-- Bytes that lie in the ranges are all matched. -/
theorem matching_append {ranges : List ByteRange} {others : List UInt8}
    (follow : Follow ranges others) (rest : List UInt8) :
    matching ranges (others ++ rest) = ranges.length ∧ others.length = ranges.length := by
  induction ranges generalizing others with
  | nil =>
    cases others with
    | nil => exact ⟨rfl, rfl⟩
    | cons byte others => cases follow
  | cons range ranges ih =>
    cases others with
    | nil => cases follow
    | cons byte others =>
      obtain ⟨same, length⟩ := ih follow.2
      simp only [List.cons_append, matching, follow.1, if_true, same, List.length_cons, length,
        and_self]

/-- Bytes that are all matched lie in the ranges. -/
theorem follow_of_matching {ranges : List ByteRange} {rest : List UInt8}
    (matched : matching ranges rest = ranges.length) :
    Follow ranges (rest.take ranges.length) := by
  induction ranges generalizing rest with
  | nil => trivial
  | cons range ranges ih =>
    cases rest with
    | nil => cases matched
    | cons byte rest =>
      simp only [matching] at matched
      split at matched
      · rename_i inside
        simp only [List.length_cons, Nat.add_right_cancel_iff] at matched
        exact ⟨inside, ih matched⟩
      · cases matched

/-- A lead byte with bytes that follow it is a character in front. -/
theorem leading_of_follow {lead : UInt8} {ranges : List ByteRange} {others : List UInt8}
    (leads : followers? lead = some ranges) (follow : Follow ranges others) (rest : List UInt8) :
    leading lead (others ++ rest) = (lead :: others, others.length) := by
  obtain ⟨matched, length⟩ := matching_append follow rest
  simp only [leading, leads, matched, if_true, ← length, List.take_left]

/-! ## The table of lead bytes -/

/-- Whether a byte lies in a range, in numbers. -/
theorem contains_iff {range : ByteRange} {byte : UInt8} :
    range.contains byte = true ↔
      range.first.toNat ≤ byte.toNat ∧ byte.toNat ≤ range.last.toNat := by
  simp only [ByteRange.contains, Bool.and_eq_true, decide_eq_true_eq, UInt8.le_iff_toNat_le]

/-- The bytes that may continue any character, in numbers. -/
theorem contains_continuation_iff {byte : UInt8} :
    continuation.contains byte = true ↔ 0x80 ≤ byte.toNat ∧ byte.toNat ≤ 0xBF := contains_iff

/-- The table of lead bytes, in numbers. -/
theorem followers?_eq (lead : UInt8) :
    followers? lead =
      if lead.toNat ≤ 0x7F then some []
      else if lead.toNat < 0xC2 then none
      else if lead.toNat ≤ 0xDF then some [continuation]
      else if lead.toNat = 0xE0 then some [⟨0xA0, 0xBF⟩, continuation]
      else if lead.toNat = 0xED then some [⟨0x80, 0x9F⟩, continuation]
      else if lead.toNat ≤ 0xEF then some [continuation, continuation]
      else if lead.toNat = 0xF0 then some [⟨0x90, 0xBF⟩, continuation, continuation]
      else if lead.toNat ≤ 0xF3 then some [continuation, continuation, continuation]
      else if lead.toNat = 0xF4 then some [⟨0x80, 0x8F⟩, continuation, continuation]
      else none := by
  simp only [followers?, UInt8.le_iff_toNat_le, UInt8.lt_iff_toNat_lt, ← UInt8.toNat_inj,
    UInt8.reduceToNat]

/-- An ASCII byte is a character of its own. -/
theorem followers?_one {lead : UInt8} (high : lead.toNat ≤ 0x7F) : followers? lead = some [] := by
  rw [followers?_eq, if_pos high]

/-- One byte follows the lead bytes that do not make the character overlong. -/
theorem followers?_two {lead : UInt8} (low : 0xC2 ≤ lead.toNat) (high : lead.toNat ≤ 0xDF) :
    followers? lead = some [continuation] := by
  rw [followers?_eq, if_neg (by omega), if_neg (by omega), if_pos high]

/-- Of two bytes that follow, the first keeps clear of overlong forms and of surrogates. -/
theorem followers?_three (lead : UInt8) (low : 0xE0 ≤ lead.toNat) (high : lead.toNat ≤ 0xEF) :
    ∃ second, followers? lead = some [second, continuation] ∧ ∀ byte,
      second.contains byte = true ↔ 0x80 ≤ byte.toNat ∧ byte.toNat ≤ 0xBF ∧
        (lead.toNat = 0xE0 → 0xA0 ≤ byte.toNat) ∧ (lead.toNat = 0xED → byte.toNat ≤ 0x9F) := by
  rw [followers?_eq, if_neg (by omega), if_neg (by omega), if_neg (by omega)]
  by_cases first : lead.toNat = 0xE0
  · refine ⟨⟨0xA0, 0xBF⟩, by rw [if_pos first], fun byte => ?_⟩
    simp only [contains_iff, UInt8.reduceToNat]
    omega
  by_cases surrogate : lead.toNat = 0xED
  · refine ⟨⟨0x80, 0x9F⟩, by rw [if_neg first, if_pos surrogate], fun byte => ?_⟩
    simp only [contains_iff, UInt8.reduceToNat]
    omega
  · refine ⟨continuation, by rw [if_neg first, if_neg surrogate, if_pos high], fun byte => ?_⟩
    rw [contains_continuation_iff]
    omega

/-- Of three bytes that follow, the first keeps clear of overlong forms and of code points past the
last. -/
theorem followers?_four (lead : UInt8) (low : 0xF0 ≤ lead.toNat) (high : lead.toNat ≤ 0xF4) :
    ∃ second, followers? lead = some [second, continuation, continuation] ∧ ∀ byte,
      second.contains byte = true ↔ 0x80 ≤ byte.toNat ∧ byte.toNat ≤ 0xBF ∧
        (lead.toNat = 0xF0 → 0x90 ≤ byte.toNat) ∧ (lead.toNat = 0xF4 → byte.toNat ≤ 0x8F) := by
  rw [followers?_eq, if_neg (by omega), if_neg (by omega), if_neg (by omega), if_neg (by omega),
    if_neg (by omega), if_neg (by omega)]
  by_cases first : lead.toNat = 0xF0
  · refine ⟨⟨0x90, 0xBF⟩, by rw [if_pos first], fun byte => ?_⟩
    simp only [contains_iff, UInt8.reduceToNat]
    omega
  by_cases last : lead.toNat = 0xF4
  · refine ⟨⟨0x80, 0x8F⟩, by rw [if_neg first, if_neg (by omega), if_pos last], fun byte => ?_⟩
    simp only [contains_iff, UInt8.reduceToNat]
    omega
  · refine ⟨continuation, by rw [if_neg first, if_pos (by omega)], fun byte => ?_⟩
    rw [contains_continuation_iff]
    omega

/-- Only these lead a character. -/
theorem lead_of_followers? {lead : UInt8} {ranges : List ByteRange}
    (leads : followers? lead = some ranges) :
    lead.toNat ≤ 0x7F ∨ (0xC2 ≤ lead.toNat ∧ lead.toNat ≤ 0xDF) ∨
      (0xE0 ≤ lead.toNat ∧ lead.toNat ≤ 0xEF) ∨ (0xF0 ≤ lead.toNat ∧ lead.toNat ≤ 0xF4) := by
  have bound := lead.toNat_lt
  rw [followers?_eq] at leads
  repeat' split at leads
  all_goals first | omega | cases leads

/-! ## Encodings of characters -/

/-- The encoding of a character is a lead byte and bytes that follow it. -/
theorem follow_utf8EncodeChar (character : Char) :
    ∃ lead ranges others, String.utf8EncodeChar character = lead :: others ∧
      followers? lead = some ranges ∧ Follow ranges others := by
  have scalar := character.valid
  simp only [UInt32.isValidChar, Nat.isValidChar] at scalar
  unfold String.utf8EncodeChar
  generalize character.val.toNat = code at scalar
  simp only
  by_cases one : code ≤ 0x7F
  · rw [if_pos one]
    refine ⟨_, [], [], rfl, followers?_one ?_, trivial⟩
    rw [UInt8.toNat_ofNat']
    omega
  by_cases two : code ≤ 0x7FF
  · rw [if_neg one, if_pos two]
    refine ⟨_, _, _, rfl, followers?_two ?_ ?_, contains_continuation_iff.mpr ?_, trivial⟩
    all_goals
      simp only [UInt8.toNat_ofNat']
      omega
  by_cases three : code ≤ 0xFFFF
  · rw [if_neg one, if_neg two, if_pos three]
    obtain ⟨second, leads, inside⟩ := followers?_three
      (UInt8.ofNat (code / 4096 % 16 + 224)) (by rw [UInt8.toNat_ofNat']; omega)
      (by rw [UInt8.toNat_ofNat']; omega)
    refine ⟨_, _, _, rfl, leads, (inside _).mpr ?_, contains_continuation_iff.mpr ?_, trivial⟩
    all_goals
      simp only [UInt8.toNat_ofNat']
      omega
  · rw [if_neg one, if_neg two, if_neg three]
    obtain ⟨second, leads, inside⟩ := followers?_four
      (UInt8.ofNat (code / 262144 % 8 + 240)) (by rw [UInt8.toNat_ofNat']; omega)
      (by rw [UInt8.toNat_ofNat']; omega)
    refine ⟨_, _, _, rfl, leads, (inside _).mpr ?_, contains_continuation_iff.mpr ?_,
      contains_continuation_iff.mpr ?_, trivial⟩
    all_goals
      simp only [UInt8.toNat_ofNat']
      omega

/-- A character by its code point. -/
theorem exists_char (code : Nat) (scalar : code < 0xD800 ∨ (0xDFFF < code ∧ code < 0x110000)) :
    ∃ character : Char, character.val.toNat = code := by
  refine ⟨⟨UInt32.ofNat code, ?_⟩, ?_⟩
  · simp only [UInt32.isValidChar, Nat.isValidChar, UInt32.toNat_ofNat']
    omega
  · simp only [UInt32.toNat_ofNat']
    omega

/-- A byte below the continuation bytes is a character. -/
theorem exists_one {lead : UInt8} (high : lead.toNat ≤ 0x7F) :
    ∃ character, String.utf8EncodeChar character = [lead] := by
  obtain ⟨character, code⟩ := exists_char lead.toNat (by omega)
  refine ⟨character, ?_⟩
  simp only [String.utf8EncodeChar, code]
  rw [if_pos high, UInt8.ofNat_toNat]

/-- Two bytes, neither overlong nor out of range, are a character. -/
theorem exists_two {lead second : UInt8} (low : 0xC2 ≤ lead.toNat) (high : lead.toNat ≤ 0xDF)
    (inside : 0x80 ≤ second.toNat ∧ second.toNat ≤ 0xBF) :
    ∃ character, String.utf8EncodeChar character = [lead, second] := by
  obtain ⟨character, code⟩ :=
    exists_char ((lead.toNat - 0xC0) * 64 + (second.toNat - 0x80)) (by omega)
  refine ⟨character, ?_⟩
  simp only [String.utf8EncodeChar, code]
  rw [if_neg (by omega), if_pos (by omega)]
  simp only [List.cons.injEq, ← UInt8.toNat_inj, UInt8.toNat_ofNat', and_true]
  omega

/-- Three bytes, neither overlong nor a surrogate, are a character. -/
theorem exists_three {lead second third : UInt8} (low : 0xE0 ≤ lead.toNat)
    (high : lead.toNat ≤ 0xEF)
    (inside : 0x80 ≤ second.toNat ∧ second.toNat ≤ 0xBF ∧
      (lead.toNat = 0xE0 → 0xA0 ≤ second.toNat) ∧ (lead.toNat = 0xED → second.toNat ≤ 0x9F))
    (inside' : 0x80 ≤ third.toNat ∧ third.toNat ≤ 0xBF) :
    ∃ character, String.utf8EncodeChar character = [lead, second, third] := by
  obtain ⟨character, code⟩ := exists_char ((lead.toNat - 0xE0) * 4096 +
    (second.toNat - 0x80) * 64 + (third.toNat - 0x80)) (by omega)
  refine ⟨character, ?_⟩
  simp only [String.utf8EncodeChar, code]
  rw [if_neg (by omega), if_neg (by omega), if_pos (by omega)]
  simp only [List.cons.injEq, ← UInt8.toNat_inj, UInt8.toNat_ofNat', and_true]
  omega

/-- Four bytes, neither overlong nor past the last code point, are a character. -/
theorem exists_four {lead second third fourth : UInt8} (low : 0xF0 ≤ lead.toNat)
    (high : lead.toNat ≤ 0xF4)
    (inside : 0x80 ≤ second.toNat ∧ second.toNat ≤ 0xBF ∧
      (lead.toNat = 0xF0 → 0x90 ≤ second.toNat) ∧ (lead.toNat = 0xF4 → second.toNat ≤ 0x8F))
    (inside' : 0x80 ≤ third.toNat ∧ third.toNat ≤ 0xBF)
    (inside'' : 0x80 ≤ fourth.toNat ∧ fourth.toNat ≤ 0xBF) :
    ∃ character, String.utf8EncodeChar character = [lead, second, third, fourth] := by
  obtain ⟨character, code⟩ := exists_char ((lead.toNat - 0xF0) * 262144 +
    (second.toNat - 0x80) * 4096 + (third.toNat - 0x80) * 64 + (fourth.toNat - 0x80)) (by omega)
  refine ⟨character, ?_⟩
  simp only [String.utf8EncodeChar, code]
  rw [if_neg (by omega), if_neg (by omega), if_neg (by omega)]
  simp only [List.cons.injEq, ← UInt8.toNat_inj, UInt8.toNat_ofNat', and_true]
  omega

/-- A lead byte and bytes that follow it are the encoding of a character. -/
theorem utf8EncodeChar_of_follow {lead : UInt8} {ranges : List ByteRange} {others : List UInt8}
    (leads : followers? lead = some ranges) (follow : Follow ranges others) :
    ∃ character, String.utf8EncodeChar character = lead :: others := by
  rcases lead_of_followers? leads with one | ⟨low, high⟩ | ⟨low, high⟩ | ⟨low, high⟩
  · rw [followers?_one one, Option.some.injEq] at leads
    subst leads
    match others, follow with
    | [], _ => exact exists_one one
  · rw [followers?_two low high, Option.some.injEq] at leads
    subst leads
    match others, follow with
    | [second], ⟨inside, _⟩ =>
      rw [contains_continuation_iff] at inside
      exact exists_two low high inside
  · obtain ⟨range, same, exact⟩ := followers?_three lead low high
    rw [same, Option.some.injEq] at leads
    subst leads
    match others, follow with
    | [second, third], ⟨inside, inside', _⟩ =>
      rw [exact] at inside
      rw [contains_continuation_iff] at inside'
      exact exists_three low high inside inside'
  · obtain ⟨range, same, exact⟩ := followers?_four lead low high
    rw [same, Option.some.injEq] at leads
    subst leads
    match others, follow with
    | [second, third, fourth], ⟨inside, inside', inside'', _⟩ =>
      rw [exact] at inside
      rw [contains_continuation_iff] at inside' inside''
      exact exists_four low high inside inside' inside''

/-! ## Repairing -/

/-- A character in front is repaired to itself. -/
theorem repair_append (character : Char) (rest : List UInt8) :
    repair (String.utf8EncodeChar character ++ rest) =
      String.utf8EncodeChar character ++ repair rest := by
  obtain ⟨lead, ranges, others, same, leads, follow⟩ := follow_utf8EncodeChar character
  rw [same, List.cons_append, repair, leading_of_follow leads follow, List.drop_left]

/-- Text is repaired to itself. -/
theorem repair_encode (characters : List Char) : repair (encode characters) = encode characters := by
  induction characters with
  | nil => rw [encode, List.flatMap_nil, repair]
  | cons character rest ih =>
    rw [encode, List.flatMap_cons, repair_append, ← encode, ih]

/-- The replacement character is a character. -/
theorem encode_replacement : encode [Char.ofNat 0xFFFD] = replacement := by decide

/-- What stands for the first byte and what belongs to it is a character. -/
theorem exists_leading (lead : UInt8) (rest : List UInt8) :
    ∃ characters, (leading lead rest).1 = encode characters := by
  simp only [leading]
  split
  · exact ⟨_, encode_replacement.symm⟩
  · rename_i ranges leads
    split
    · rename_i matched
      obtain ⟨character, same⟩ := utf8EncodeChar_of_follow leads (follow_of_matching matched)
      refine ⟨[character], ?_⟩
      rw [encode, List.flatMap_singleton, same, matched]
    · exact ⟨_, encode_replacement.symm⟩

/-- What was repaired is text. -/
theorem exists_repair (input : List UInt8) : ∃ characters, repair input = encode characters := by
  fun_induction repair input with
  | case1 => exact ⟨[], rfl⟩
  | case2 lead rest ih =>
    obtain ⟨characters, same⟩ := ih
    obtain ⟨first, same'⟩ := exists_leading lead rest
    refine ⟨first ++ characters, ?_⟩
    rw [same, same', encode, encode, encode, List.flatMap_append]

/-- What was repaired is repaired to itself. -/
theorem repair_repair (input : List UInt8) : repair (repair input) = repair input := by
  obtain ⟨characters, same⟩ := exists_repair input
  rw [same, repair_encode]

end Utf8

namespace Text

/-- The bytes of a text are those of its characters. -/
theorem bytes_eq_encode (text : String) : bytes text = Utf8.encode text.toList := by
  obtain ⟨characters, rfl⟩ : ∃ characters, String.ofList characters = text :=
    ⟨text.toList, String.ofList_toList⟩
  rw [String.toList_ofList]
  exact List.toList_data_toByteArray

/-- Bytes are text if and only if repairing changes nothing. -/
theorem repair_eq_self_iff {input : List UInt8} :
    Utf8.repair input = input ↔ ∃ text, ofBytes? input = some text := by
  constructor
  · intro same
    obtain ⟨characters, encoded⟩ := Utf8.exists_repair input
    refine ⟨String.ofList characters, ofBytes?_eq_some.mpr ?_⟩
    rw [bytes_eq_encode, String.toList_ofList, ← encoded, same]
  · rintro ⟨text, found⟩
    rw [← ofBytes?_eq_some.mp found, bytes_eq_encode, Utf8.repair_encode]

end Text

end LispReader

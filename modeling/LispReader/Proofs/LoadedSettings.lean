import LispReader.Proofs.WrittenNumbers

/-!
# Settings loaded from variables

A setting has its default if its variable is unset, and else the number that the variable writes,
provided that this is positive and fits in the setting's word. Settings are loaded exactly if there
is such a number for each of the three, and then hold these numbers, the nesting cut to its ceiling.
Else the first variable without one is reported: as zero if this is what it writes, and with its
whole text if it writes nothing or too much.
-/

namespace LispReader

/-! ## What a variable says -/

/-- The number that settings hold for one of them. -/
def Settings.value (settings : Settings) : Setting → Nat
  | .arenaCapacity => settings.arenaCapacity.toNat
  | .tokenBatch => settings.tokenBatch.toNat
  | .maxDepth => settings.maxDepth.toNat

namespace Setting

/-- The place of a setting in the order in which their variables are read. -/
def place : Setting → Nat
  | .arenaCapacity => 0
  | .tokenBatch => 1
  | .maxDepth => 2

/-- What becomes of the number of a setting: the nesting is cut to its ceiling. -/
def cut : Setting → Nat → Nat
  | .arenaCapacity, number => number
  | .tokenBatch, number => number
  | .maxDepth, number => min number 1024

/-- Whether a text is right for a setting: it writes a positive number that fits in its word, of 32
bits for the tokens of a batch and of 64 for the others. -/
def Accepts (setting : Setting) (text : String) (number : Nat) : Prop :=
  Text.Writes text number ∧ 0 < number ∧ number < setting.bound

/-- Whether a text is wrong for a setting, and what is reported then. -/
inductive Refuses (setting : Setting) (text : String) : SettingsError → Prop where
  | zero (writes : Text.Writes text 0) : Refuses setting text (.zero setting)
  | invalid (large : ∀ number, Text.Writes text number → setting.bound ≤ number) :
    Refuses setting text (.invalid setting text)

section Lookup

variable (lookup : String → Option String) (setting : Setting)

/-- Whether the variable of a setting is unset or right for it. -/
def IsFit : Prop :=
  ∀ text, lookup setting.variableName = some text → ∃ number, setting.Accepts text number

/-- Whether a setting has a number: its default, or what its variable writes. -/
inductive Has : Nat → Prop where
  | unset (missing : lookup setting.variableName = none) : Has (Settings.default.value setting)
  | set {text : String} {number : Nat} (found : lookup setting.variableName = some text)
    (accepted : setting.Accepts text number) : Has number

/-- Whether there is a problem with the variable of a setting: it holds a text that is wrong. -/
def HasProblem (problem : SettingsError) : Prop :=
  ∃ text, lookup setting.variableName = some text ∧ setting.Refuses text problem

end Lookup

/-- A word holds some number. -/
theorem bound_pos (setting : Setting) : 0 < setting.bound := by
  cases setting <;> exact Nat.zero_lt_succ _

/-- The defaults are positive and fit in their words. -/
theorem default_fits (setting : Setting) :
    0 < Settings.default.value setting ∧ Settings.default.value setting < setting.bound := by
  cases setting <;> decide

/-- What is cut from a positive number is positive. -/
theorem cut_pos (setting : Setting) {number : Nat} (positive : 0 < number) :
    0 < setting.cut number := by
  cases setting with
  | arenaCapacity | tokenBatch => exact positive
  | maxDepth => exact Nat.lt_min.mpr ⟨positive, by decide⟩

variable {lookup : String → Option String} {setting : Setting}

/-- The number of a setting is positive and fits in its word. -/
theorem Has.fits {number : Nat} (has : setting.Has lookup number) :
    0 < number ∧ number < setting.bound := by
  cases has with
  | unset missing => exact default_fits setting
  | set found accepted => exact accepted.2

/-- A problem with the variable of a setting names this setting. -/
theorem HasProblem.culprit {problem : SettingsError}
    (troubled : setting.HasProblem lookup problem) : problem.culprit = setting := by
  obtain ⟨text, -, writes | large⟩ := troubled <;> rfl

/-- A variable is unset or right exactly if its setting has a number. -/
theorem isFit_iff : setting.IsFit lookup ↔ ∃ number, setting.Has lookup number := by
  constructor
  · intro fit
    cases found : lookup setting.variableName with
    | none => exact ⟨_, .unset found⟩
    | some text =>
      obtain ⟨number, accepted⟩ := fit text found
      exact ⟨number, .set found accepted⟩
  · rintro ⟨number, missing | ⟨found', accepted⟩⟩ text found
    · rw [missing] at found
      cases found
    · rw [found'] at found
      cases found
      exact ⟨number, accepted⟩

end Setting

namespace Settings

open Setting

/-! ## One variable -/

section Value

variable {setting : Setting} {text : String}

/-- The number that a text writes decides what comes of it. -/
theorem readValue_of_writes {number : Nat} (writes : Text.Writes text number) :
    readValue setting text =
      if number < setting.bound then
        if number = 0 then .error (.zero setting) else .ok number
      else .error (.invalid setting text) := by
  rw [readValue, Text.readNat?_trim.mpr writes]

/-- A text that writes nothing is invalid. -/
theorem readValue_of_not_writes (blank : ∀ number, ¬ Text.Writes text number) :
    readValue setting text = .error (.invalid setting text) := by
  have unread : Numeral.readNat? (Text.bytes (String.ofList (Text.trim text))) = none :=
    Option.eq_none_iff_forall_ne_some.mpr fun number read =>
      blank number (Text.readNat?_trim.mp read)
  rw [readValue, unread]

/-- A text is right for a setting and is read, or it is wrong and is reported. -/
theorem readValue_cases (setting : Setting) (text : String) :
    (∃ number, setting.Accepts text number ∧ readValue setting text = .ok number) ∨
      ∃ problem, setting.Refuses text problem ∧ readValue setting text = .error problem := by
  by_cases written : ∃ number, Text.Writes text number
  · obtain ⟨number, writes⟩ := written
    rw [readValue_of_writes writes]
    by_cases small : number < setting.bound
    · rw [if_pos small]
      rcases Nat.eq_zero_or_pos number with rfl | positive
      · exact .inr ⟨_, .zero writes, if_pos rfl⟩
      · exact .inl ⟨number, ⟨writes, positive, small⟩, if_neg (Nat.ne_of_gt positive)⟩
    · refine .inr ⟨_, .invalid fun other writes' => ?_, if_neg small⟩
      rw [writes.unique writes']
      exact Nat.le_of_not_lt small
  · have blank (number : Nat) : ¬ Text.Writes text number := fun writes =>
      written ⟨number, writes⟩
    exact .inr ⟨_, .invalid fun number writes => absurd writes (blank number),
      readValue_of_not_writes blank⟩

/-- A text is read as the number that makes it right for the setting. -/
theorem readValue_eq_ok {number : Nat} :
    readValue setting text = .ok number ↔ setting.Accepts text number := by
  constructor
  · intro read
    rcases readValue_cases setting text with ⟨other, accepted, read'⟩ | ⟨problem, -, failed⟩
    · rw [read'] at read
      cases read
      exact accepted
    · rw [failed] at read
      cases read
  · rintro ⟨writes, positive, small⟩
    rw [readValue_of_writes writes, if_pos small, if_neg (Nat.ne_of_gt positive)]

/-- What is reported about a text is what makes it wrong for the setting. -/
theorem readValue_eq_error {problem : SettingsError} :
    readValue setting text = .error problem ↔ setting.Refuses text problem := by
  constructor
  · intro failed
    rcases readValue_cases setting text with ⟨number, -, read⟩ | ⟨other, refused, failed'⟩
    · rw [read] at failed
      cases failed
    · rw [failed'] at failed
      cases failed
      exact refused
  · rintro (writes | large)
    · rw [readValue_of_writes writes, if_pos setting.bound_pos, if_pos rfl]
    · by_cases written : ∃ number, Text.Writes text number
      · obtain ⟨number, writes⟩ := written
        rw [readValue_of_writes writes, if_neg (Nat.not_lt_of_le (large number writes))]
      · exact readValue_of_not_writes fun number writes => written ⟨number, writes⟩

example : readValue .tokenBatch "-0" = .error (.invalid .tokenBatch "-0") := by rfl

end Value

/-- The number of a setting before it is cut, or what is reported about its variable. -/
def numberOf (lookup : String → Option String) (setting : Setting) : Except SettingsError Nat :=
  valueOf lookup setting (default.value setting)

section Variables

variable {lookup : String → Option String} {setting : Setting}

/-- The number found for a setting is the one that it has. -/
theorem numberOf_eq_ok {number : Nat} :
    numberOf lookup setting = .ok number ↔ setting.Has lookup number := by
  cases found : lookup setting.variableName with
  | none =>
    simp only [numberOf, valueOf, found, Except.ok.injEq]
    constructor
    · rintro rfl
      exact .unset found
    · rintro (missing | ⟨found', accepted⟩)
      · rfl
      · rw [found] at found'
        cases found'
  | some text =>
    simp only [numberOf, valueOf, found, readValue_eq_ok]
    constructor
    · intro accepted
      exact .set found accepted
    · rintro (missing | ⟨found', accepted⟩)
      · rw [found] at missing
        cases missing
      · rw [found] at found'
        cases found'
        exact accepted

/-- The problem found for a setting is the one with its variable. -/
theorem numberOf_eq_error {problem : SettingsError} :
    numberOf lookup setting = .error problem ↔ setting.HasProblem lookup problem := by
  cases found : lookup setting.variableName with
  | none => simp [numberOf, valueOf, HasProblem, found]
  | some text => simp [numberOf, valueOf, HasProblem, found, readValue_eq_error]

/-! ## All variables -/

/-- The settings with given numbers, the nesting cut. -/
def ofNumbers (numbers : Setting → Nat) : Settings :=
  ⟨(numbers .arenaCapacity).toUInt64, (numbers .tokenBatch).toUInt32,
    min (numbers .maxDepth).toUInt64 depthCeiling⟩

/-- Cutting a word to the ceiling cuts the number in it. -/
theorem toNat_min_depthCeiling (depth : UInt64) :
    (min depth depthCeiling).toNat = min depth.toNat 1024 := by
  have ceiling : depthCeiling.toNat = 1024 := rfl
  show (if depth ≤ depthCeiling then depth else depthCeiling).toNat = min depth.toNat 1024
  split
  · rename_i below
    rw [UInt64.le_iff_toNat_le, ceiling] at below
    rw [Nat.min_eq_left below]
  · rename_i above
    rw [UInt64.le_iff_toNat_le, ceiling] at above
    rw [ceiling, Nat.min_eq_right (Nat.le_of_not_le above)]

/-- Numbers that fit in their words are held as they are, but for the cut. -/
theorem value_ofNumbers {numbers : Setting → Nat} (small : numbers setting < setting.bound) :
    (ofNumbers numbers).value setting = setting.cut (numbers setting) := by
  cases setting with
  | arenaCapacity => exact UInt64.toNat_ofNat_of_lt' small
  | tokenBatch => exact UInt32.toNat_ofNat_of_lt' small
  | maxDepth =>
    have held : (numbers .maxDepth).toUInt64.toNat = numbers .maxDepth :=
      UInt64.toNat_ofNat_of_lt' small
    calc (min (numbers .maxDepth).toUInt64 depthCeiling).toNat
      _ = min (numbers .maxDepth).toUInt64.toNat 1024 := toNat_min_depthCeiling _
      _ = min (numbers .maxDepth) 1024 := by rw [held]

/-- Settings that hold the same numbers are the same. -/
theorem ext_value {settings other : Settings}
    (same : ∀ setting, settings.value setting = other.value setting) : settings = other := by
  cases settings
  cases other
  rw [mk.injEq]
  exact ⟨UInt64.toNat_inj.mp (same .arenaCapacity), UInt32.toNat_inj.mp (same .tokenBatch),
    UInt64.toNat_inj.mp (same .maxDepth)⟩

/-- The numbers of the settings are found in their order. -/
theorem load_eq (lookup : String → Option String) :
    load lookup = do
      let arenaCapacity ← numberOf lookup .arenaCapacity
      let tokenBatch ← numberOf lookup .tokenBatch
      let maxDepth ← numberOf lookup .maxDepth
      return ⟨arenaCapacity.toUInt64, tokenBatch.toUInt32,
        min maxDepth.toUInt64 depthCeiling⟩ := rfl

/-- Settings are loaded from their numbers. -/
theorem load_of_ok {numbers : Setting → Nat}
    (found : ∀ setting, numberOf lookup setting = .ok (numbers setting)) :
    load lookup = .ok (ofNumbers numbers) := by
  simp only [load_eq, found]
  rfl

/-- The first setting without a number is reported. -/
theorem load_of_error {problem : SettingsError} (refused : numberOf lookup setting = .error problem)
    (before : ∀ earlier : Setting, earlier.place < setting.place →
      ∃ number, numberOf lookup earlier = .ok number) : load lookup = .error problem := by
  cases setting with
  | arenaCapacity =>
    rw [load_eq, refused]
    rfl
  | tokenBatch =>
    obtain ⟨arenaCapacity, first⟩ := before .arenaCapacity (by decide)
    rw [load_eq, first, refused]
    rfl
  | maxDepth =>
    obtain ⟨arenaCapacity, first⟩ := before .arenaCapacity (by decide)
    obtain ⟨tokenBatch, second⟩ := before .tokenBatch (by decide)
    rw [load_eq, first, second, refused]
    rfl

/-- Where a setting has no number, there is a first one that has none. -/
theorem exists_first_of_error (lookup : String → Option String) {setting : Setting}
    {problem : SettingsError} (refused : numberOf lookup setting = .error problem) :
    ∃ first problem, numberOf lookup first = .error problem ∧
      ∀ earlier : Setting, earlier.place < first.place →
        ∃ number, numberOf lookup earlier = .ok number := by
  -- The first one is found by going back from one without a number to an earlier one.
  induction place : setting.place using Nat.strongRecOn generalizing setting problem with
  | _ place ih =>
    subst place
    by_cases sound : ∀ earlier : Setting, earlier.place < setting.place →
        ∃ number, numberOf lookup earlier = .ok number
    · exact ⟨setting, problem, refused, sound⟩
    · simp only [Classical.not_forall, not_exists] at sound
      obtain ⟨earlier, before, lacking⟩ := sound
      cases outcome : numberOf lookup earlier with
      | ok number => exact absurd outcome (lacking number)
      | error problem' => exact ih earlier.place before outcome rfl

/-- Either all settings have numbers and are loaded from them, or the first one that has none is
reported. -/
theorem load_cases (lookup : String → Option String) :
    (∃ numbers : Setting → Nat, (∀ setting, numberOf lookup setting = .ok (numbers setting)) ∧
      load lookup = .ok (ofNumbers numbers)) ∨
    ∃ first problem, numberOf lookup first = .error problem ∧
      (∀ earlier : Setting, earlier.place < first.place →
        ∃ number, numberOf lookup earlier = .ok number) ∧ load lookup = .error problem := by
  by_cases all : ∀ setting, ∃ number, numberOf lookup setting = .ok number
  · obtain ⟨numbers, found⟩ := Classical.axiomOfChoice all
    exact .inl ⟨numbers, found, load_of_ok found⟩
  · obtain ⟨setting, lacking⟩ := Classical.not_forall.mp all
    cases outcome : numberOf lookup setting with
    | ok number => exact absurd ⟨number, outcome⟩ lacking
    | error problem =>
      obtain ⟨first, problem, refused, before⟩ := exists_first_of_error lookup outcome
      exact .inr ⟨first, problem, refused, before, load_of_error refused before⟩

/-- Settings are loaded exactly if they hold a number that each setting has, but for the cut. -/
theorem load_eq_ok {settings : Settings} :
    load lookup = .ok settings ↔ ∀ setting : Setting, ∃ number,
      setting.Has lookup number ∧ settings.value setting = setting.cut number := by
  rcases load_cases lookup with ⟨numbers, found, loaded⟩ | ⟨first, problem, refused, -, failed⟩
  · have has (setting : Setting) : setting.Has lookup (numbers setting) :=
      numberOf_eq_ok.mp (found setting)
    have held (setting : Setting) :
        (ofNumbers numbers).value setting = setting.cut (numbers setting) :=
      value_ofNumbers (has setting).fits.2
    rw [loaded]
    constructor
    · rintro ⟨⟩ setting
      exact ⟨numbers setting, has setting, held setting⟩
    · intro holds
      refine congrArg Except.ok (ext_value fun setting => ?_)
      obtain ⟨number, other, same⟩ := holds setting
      have only := (found setting).symm.trans (numberOf_eq_ok.mpr other)
      cases only
      rw [held, same]
  · rw [failed]
    constructor
    · intro loaded
      cases loaded
    · intro holds
      obtain ⟨number, has, -⟩ := holds first
      rw [numberOf_eq_ok.mpr has] at refused
      cases refused

/-- A problem is reported exactly if its setting has it and is the first that has one. -/
theorem load_eq_error {problem : SettingsError} :
    load lookup = .error problem ↔ problem.culprit.HasProblem lookup problem ∧
      ∀ earlier : Setting, earlier.place < problem.culprit.place → earlier.IsFit lookup := by
  constructor
  · intro failed
    rcases load_cases lookup with ⟨numbers, -, loaded⟩ | ⟨first, other, refused, before, failed'⟩
    · rw [loaded] at failed
      cases failed
    · rw [failed'] at failed
      cases failed
      have troubled := numberOf_eq_error.mp refused
      rw [troubled.culprit]
      refine ⟨troubled, fun earlier precedes => isFit_iff.mpr ?_⟩
      obtain ⟨number, found⟩ := before earlier precedes
      exact ⟨number, numberOf_eq_ok.mp found⟩
  · rintro ⟨troubled, before⟩
    refine load_of_error (numberOf_eq_error.mpr troubled) fun earlier precedes => ?_
    obtain ⟨number, has⟩ := isFit_iff.mp (before earlier precedes)
    exact ⟨number, numberOf_eq_ok.mpr has⟩

/-- Settings can be loaded exactly if every variable is unset or right for its setting. -/
theorem exists_load_eq_ok :
    (∃ settings, load lookup = .ok settings) ↔ ∀ setting : Setting, setting.IsFit lookup := by
  constructor
  · rintro ⟨settings, loaded⟩ setting
    obtain ⟨number, has, -⟩ := load_eq_ok.mp loaded setting
    exact isFit_iff.mpr ⟨number, has⟩
  · intro fit
    obtain ⟨numbers, has⟩ := Classical.axiomOfChoice fun setting => isFit_iff.mp (fit setting)
    exact ⟨_, load_of_ok fun setting => numberOf_eq_ok.mpr (has setting)⟩

/-- Loaded settings are positive, and the nesting is at most its ceiling. -/
theorem bounds_of_load {settings : Settings} (loaded : load lookup = .ok settings) :
    (∀ setting, 0 < settings.value setting) ∧ settings.maxDepth ≤ 1024 := by
  have holds := load_eq_ok.mp loaded
  constructor
  · intro setting
    obtain ⟨number, has, held⟩ := holds setting
    rw [held]
    exact setting.cut_pos has.fits.1
  · obtain ⟨number, -, held⟩ := holds .maxDepth
    rw [UInt64.le_iff_toNat_le]
    exact Nat.le_trans (Nat.le_of_eq held) (Nat.min_le_right number 1024)

/-- Loading reads each variable exactly. It succeeds if every variable is unset or right for its
setting; the settings then hold the defaults of those that are unset and the numbers that the others
write, the nesting cut to 1024, so they are positive. If it fails, the first variable that is wrong
is reported with what is wrong about it. -/
theorem load_reads_variables (lookup : String → Option String) :
    ((∃ settings, load lookup = .ok settings) ↔ ∀ setting : Setting, setting.IsFit lookup) ∧
    (∀ settings, load lookup = .ok settings ↔ ∀ setting : Setting, ∃ number,
      setting.Has lookup number ∧ settings.value setting = setting.cut number) ∧
    (∀ settings, load lookup = .ok settings →
      (∀ setting, 0 < settings.value setting) ∧ settings.maxDepth ≤ 1024) ∧
    ∀ problem, load lookup = .error problem ↔ problem.culprit.HasProblem lookup problem ∧
      ∀ earlier : Setting, earlier.place < problem.culprit.place → earlier.IsFit lookup :=
  ⟨exists_load_eq_ok, fun _ => load_eq_ok, fun _ => bounds_of_load, fun _ => load_eq_error⟩

/-- A nesting beyond the ceiling, with white space past ASCII around its numeral, is cut. -/
theorem load_reads_variables_deep :
    let lookup : String → Option String := fun name =>
      if name = Setting.maxDepth.variableName then some "\u00a0+02048\n" else none
    let settings : Settings := ⟨1048576, 64, 1024⟩
    load lookup = .ok settings ∧ (∀ setting, 0 < settings.value setting) ∧
      settings.maxDepth ≤ 1024 := by
  intro lookup settings
  have loaded : load lookup = .ok settings := rfl
  exact ⟨loaded, (load_reads_variables lookup).2.2.1 settings loaded⟩

end Variables

end Settings

end LispReader

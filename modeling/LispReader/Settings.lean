import LispReader.Text.Bytes
import LispReader.Text.Numeral
import LispReader.Text.Quoted
import LispReader.Text.Record
import LispReader.Text.WhiteSpace

/-!
# Settings

Three numbers govern a read: the bytes of its arena, the tokens scanned per batch, and the deepest
nesting it follows. Each has a default and a variable that overrides it. Variables are read in a
fixed order, the first bad one is reported, and the nesting is capped.
-/

namespace LispReader

/-- The numbers that govern a read. -/
structure Settings where
  arenaCapacity : UInt64
  tokenBatch : UInt32
  maxDepth : UInt64
  deriving DecidableEq

/-- The settings, each of which a variable can override. -/
inductive Setting where
  | arenaCapacity
  | tokenBatch
  | maxDepth
  deriving DecidableEq, Inhabited

namespace Setting

/-- The name of the variable that overrides a setting. -/
def variableName : Setting → String
  | .arenaCapacity => "LISPFRONT_ARENA_CAPACITY"
  | .tokenBatch => "LISPFRONT_TOKEN_BATCH"
  | .maxDepth => "LISPFRONT_MAX_DEPTH"

/-- The least number that the word of a setting cannot hold. -/
def bound : Setting → Nat
  | .arenaCapacity => UInt64.size
  | .tokenBatch => UInt32.size
  | .maxDepth => UInt64.size

end Setting

/-- Why the value of a variable is refused. -/
inductive SettingsError where
  | invalid (setting : Setting) (text : String)
  | zero (setting : Setting)
  deriving DecidableEq

namespace SettingsError

/-- The setting whose variable is refused. -/
def culprit : SettingsError → Setting
  | .invalid culprit _ => culprit
  | .zero culprit => culprit

/-- The words printed for an error. -/
def message : SettingsError → String
  | .invalid culprit text =>
    culprit.variableName ++ ": could not parse " ++ Text.quoted text ++ " as a number"
  | .zero culprit => culprit.variableName ++ ": must be greater than zero"

end SettingsError

namespace Text

/-- A text without the white space on either side. -/
def trim (text : String) : List Char :=
  let blank := CodePointSet.whiteSpace.contains
  ((text.toList.dropWhile blank).reverse.dropWhile blank).reverse

end Text

namespace Settings

/-- The deepest nesting that a read follows, whatever the settings say. -/
def depthCeiling : UInt64 := 1024

/-- The settings when no variable is set. -/
def default : Settings := ⟨1048576, 64, 256⟩

instance : Inhabited Settings := ⟨default⟩

/-- The deepest nesting that a read under these settings follows. -/
def depthLimit (settings : Settings) : Nat := min settings.maxDepth.toNat depthCeiling.toNat

/-- The positive number written in the value of a variable: a numeral with an optional plus sign,
with white space around it. -/
def readValue (setting : Setting) (text : String) : Except SettingsError Nat :=
  match Numeral.readNat? (Text.bytes (String.ofList (Text.trim text))) with
  | none => .error (.invalid setting text)
  | some number =>
    if number < setting.bound then
      if number = 0 then .error (.zero setting) else .ok number
    else .error (.invalid setting text)

/-- The number of a variable: the one it holds, or else the default. -/
def valueOf (lookup : String → Option String) (setting : Setting) (otherwise : Nat) :
    Except SettingsError Nat :=
  match lookup setting.variableName with
  | none => .ok otherwise
  | some text => readValue setting text

/-- The settings given by the variables that are set, and the defaults for the others. -/
def load (lookup : String → Option String) : Except SettingsError Settings := do
  let arenaCapacity ← valueOf lookup .arenaCapacity default.arenaCapacity.toNat
  let tokenBatch ← valueOf lookup .tokenBatch default.tokenBatch.toNat
  let maxDepth ← valueOf lookup .maxDepth default.maxDepth.toNat
  return ⟨arenaCapacity.toUInt64, tokenBatch.toUInt32, min maxDepth.toUInt64 depthCeiling⟩

/-- Settings as a record. -/
def inspect (settings : Settings) : String :=
  Text.record "Config" [
    Text.field "arena_capacity" (toString settings.arenaCapacity.toNat),
    Text.field "token_batch" (toString settings.tokenBatch.toNat),
    Text.field "max_depth" (toString settings.maxDepth.toNat)]

end Settings

end LispReader

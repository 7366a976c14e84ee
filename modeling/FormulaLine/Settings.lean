import FormulaLine.Text.Numeral

namespace FormulaLine

/-!
Settings, which are read from named variables of the environment.
-/

structure Settings where
  /-- The longest formula that is read. -/
  inputLimit : Int
  /-- How many hints may be remembered.  Remembering changes no answer. -/
  rememberedHints : Int
  /-- How many read formulas may be remembered. -/
  rememberedFormulas : Int
  /-- The name of the level from which events are recorded. -/
  logLevel : List Char

namespace Settings

/-- The version of the program. -/
def version : List Char := "0.1.0".toList

/-- The settings of an empty environment. -/
def standard : Settings where
  inputLimit := 1000
  rememberedHints := 1024
  rememberedFormulas := 256
  logLevel := "WARNING".toList

def inputLimitName : String := "IMPLICALC_MAX_INPUT_LENGTH"
def rememberedHintsName : String := "IMPLICALC_CACHE_SIZE_HINT"
def rememberedFormulasName : String := "IMPLICALC_CACHE_SIZE_PARSE"
def logLevelName : String := "IMPLICALC_LOG_LEVEL"

/-- An integer setting, where a variable that is not set has the given value. -/
def readInteger (value : Option (List Char)) (unset : Int) : Except Text.NumeralError Int :=
  match value with
  | some text => Text.readInteger text
  | none => .ok unset

/-- Reads the settings.  The first numeral that cannot be read is a fault. -/
def read (environment : String → Option (List Char)) : Except Text.NumeralError Settings := do
  let inputLimit ← readInteger (environment inputLimitName) standard.inputLimit
  let hints ← readInteger (environment rememberedHintsName) standard.rememberedHints
  let formulas ← readInteger (environment rememberedFormulasName) standard.rememberedFormulas
  return {
    inputLimit := inputLimit
    rememberedHints := hints
    rememberedFormulas := formulas
    logLevel := (environment logLevelName).getD standard.logLevel }

end Settings
end FormulaLine

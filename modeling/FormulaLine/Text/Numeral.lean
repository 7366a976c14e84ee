import FormulaLine.Text.Blank
import FormulaLine.Text.Digit
import FormulaLine.Text.Quoted

namespace FormulaLine
namespace Text

/-!
Reading integers from settings.  A numeral is an optional sign and decimal
digits of any script, where single underscores may stand between two digits.
Blank characters around it are ignored, the information separators excepted.
-/

/-- Most digits a numeral may have. -/
def maxNumeralDigits : Nat := 4300

inductive NumeralError where
  | malformed (text : List Char)
  | tooManyDigits (count : Nat)

/-- How many characters of a quoted numeral an error message shows. -/
def NumeralError.shown : Nat := 200

def NumeralError.message : NumeralError → String
  | .malformed text =>
    "invalid literal for int() with base 10: " ++
      String.ofList ((quote text).take NumeralError.shown)
  | .tooManyDigits count =>
    s!"Exceeds the limit ({maxNumeralDigits} digits) for integer string conversion: value has " ++
      s!"{count} digits; use sys.set_int_max_str_digits() to increase the limit"

/-- Blank characters that may surround a numeral. -/
def isNumeralPadding (c : Char) : Bool :=
  isBlank c && !(0x1C ≤ c.toNat && c.toNat ≤ 0x1F)

/-- Whether the text starts with a decimal digit. -/
def startsWithDigit (text : List Char) : Bool :=
  text.head?.any fun c => (decimalValue? c).isSome

/-- The digits at the start of the text and what follows them.  An underscore
is skipped where it stands directly between two digits. -/
def spanDigits (afterDigit : Bool) : List Char → List Nat × List Char
  | [] => ([], [])
  | c :: rest =>
    match decimalValue? c with
    | some digit =>
      let (digits, tail) := spanDigits true rest
      (digit :: digits, tail)
    | none =>
      if afterDigit && c == '_' && startsWithDigit rest then spanDigits false rest
      else ([], c :: rest)

/-- The number with the given decimal digits, most significant first. -/
def ofDigits (digits : List Nat) : Nat :=
  digits.foldl (fun value digit => 10 * value + digit) 0

/-- The sign of a numeral, `true` for minus, and what follows it. -/
def takeSign : List Char → Bool × List Char
  | '-' :: rest => (true, rest)
  | '+' :: rest => (false, rest)
  | rest => (false, rest)

/-- Reads an integer.  A misplaced underscore is noticed before the digits are
counted, and anything else that does not belong to the numeral after that. -/
def readInteger (text : List Char) : Except NumeralError Int :=
  let (negative, body) := takeSign (trimBy isNumeralPadding text)
  let (digits, rest) := spanDigits false body
  if digits.isEmpty || rest.head? == some '_' then .error (.malformed text)
  else if maxNumeralDigits < digits.length then .error (.tooManyDigits digits.length)
  else if !rest.isEmpty then .error (.malformed text)
  else .ok (if negative then -(ofDigits digits : Int) else ofDigits digits)

end Text
end FormulaLine

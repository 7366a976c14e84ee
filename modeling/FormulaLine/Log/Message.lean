import FormulaLine.Text.Quoted

namespace FormulaLine
namespace Log

/-!
Messages with gaps.  A gap is a percent sign with the letter that says how its
argument is written: `s` as it is, `r` quoted if it is a text, `d` only if it is a
number.  Two percent signs stand for one.  A message without arguments has no
gaps, and its percent signs stand for themselves.
-/

/-- What fills a gap. -/
inductive Argument where
  | number (value : Int)
  | text (value : List Char)

namespace Argument

/-- The argument as it is. -/
def plain : Argument → List Char
  | .number value => (toString value).toList
  | .text value => value

/-- The argument with a text in quotes. -/
def quoted : Argument → List Char
  | .number value => (toString value).toList
  | .text value => Text.quote value

end Argument

/-- Why arguments do not fill a message. -/
inductive MessageFault where
  | tooFewArguments
  | tooManyArguments
  | notANumber
  | unknownGap (letter : Char) (index : Nat)
  | unfinishedGap

namespace MessageFault

/-- How an unknown letter is shown: only printable ASCII is shown as it is. -/
def shownLetter (letter : Char) : Char :=
  if 32 ≤ letter.toNat ∧ letter.toNat ≤ 126 then letter else '?'

/-- The code point in hexadecimal, without leading zeros. -/
def codePoint (letter : Char) : List Char :=
  match (Text.hexDigits 6 letter.toNat).dropWhile (· == '0') with
  | [] => ['0']
  | digits => digits

def message : MessageFault → String
  | .tooFewArguments => "not enough arguments for format string"
  | .tooManyArguments => "not all arguments converted during string formatting"
  | .notANumber => "%d format: a real number is required, not str"
  | .unknownGap letter index =>
    "unsupported format character '" ++ String.ofList [shownLetter letter] ++ "' (0x" ++
      String.ofList (codePoint letter) ++ ") at index " ++ toString index
  | .unfinishedGap => "incomplete format"

end MessageFault

/-- What an argument looks like in a gap with the given letter. -/
def fillGap (letter : Char) (index : Nat) (argument : Argument) :
    Except MessageFault (List Char) :=
  if letter = 's' then .ok argument.plain
  else if letter = 'r' then .ok argument.quoted
  else if letter = 'd' then
    match argument with
    | .number value => .ok (toString value).toList
    | .text _ => .error .notANumber
  else .error (.unknownGap letter index)

/-- Fills the gaps of the rest of a message that starts at `index`. -/
def fillFrom (index : Nat) : List Char → List Argument → Except MessageFault (List Char)
  | [], [] => .ok []
  | [], _ :: _ => .error .tooManyArguments
  | ['%'], _ => .error .unfinishedGap
  | '%' :: '%' :: rest, arguments => (fillFrom (index + 2) rest arguments).map ('%' :: ·)
  | '%' :: _ :: _, [] => .error .tooFewArguments
  | '%' :: letter :: rest, argument :: arguments => do
    let filled ← fillGap letter (index + 1) argument
    return filled ++ (← fillFrom (index + 2) rest arguments)
  | c :: rest, arguments => (fillFrom (index + 1) rest arguments).map (c :: ·)

/-- The message with its gaps filled. -/
def fill (template : List Char) (arguments : List Argument) : Except MessageFault (List Char) :=
  if arguments.isEmpty then .ok template else fillFrom 0 template arguments

end Log
end FormulaLine

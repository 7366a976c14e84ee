import FormulaLine.Glyph
import FormulaLine.Guard.Balance
import FormulaLine.Text.Blank

namespace FormulaLine
namespace Guard

/-!
What is checked of a typed formula before it is read: its length, its characters,
that no point is followed by a letter, and the balance of its parentheses.  The
first check that fails refuses the formula.
-/

/-- Why a formula is refused. -/
inductive Refusal where
  | tooLong (limit : Int)
  | forbiddenCharacters (length : Nat)
  | memberAccess
  | unbalanced (position : Nat)
  deriving DecidableEq

namespace Refusal

def message : Refusal → String
  | .tooLong limit => s!"Input too long (>{limit} characters)"
  | .forbiddenCharacters _ => "Input contains disallowed characters"
  | .memberAccess => "Attribute access is not allowed"
  | .unbalanced position => s!"Mismatched or unbalanced parentheses at position {position}"

def code : Refusal → String
  | .tooLong _ => "TOO_LONG"
  | .forbiddenCharacters _ => "FORBIDDEN_CHARS"
  | .memberAccess => "FORBIDDEN_TOKEN"
  | .unbalanced _ => "UNBALANCED_PARENS"

end Refusal

/-- Whether a formula may hold the character. -/
def isAllowed (c : Char) : Bool :=
  Glyph.isAsciiDigit c || Glyph.isAsciiLetter c ||
    ['π', '.', '+', '-', '*', '/', '^', '(', ')'].contains c || Text.isBlank c

/-- Whether the first character that is not blank is a letter or an underscore. -/
def startsName (text : List Char) : Bool :=
  match text.dropWhile Text.isBlank with
  | [] => false
  | c :: _ => Glyph.isAsciiLetter c || c == '_'

/-- Whether some point is followed, after blanks, by a letter or an underscore. -/
def hasMemberAccess : List Char → Bool
  | [] => false
  | c :: rest => (c == '.' && startsName rest) || hasMemberAccess rest

/-- The longest formula that is read, unless settings say otherwise. -/
def defaultLimit : Int := 1000

/-- Why the formula is refused, if it is. -/
def refusal? (limit : Int) (text : List Char) : Option Refusal :=
  if limit < text.length then some (.tooLong limit)
  else if !text.all isAllowed then some (.forbiddenCharacters text.length)
  else if hasMemberAccess text then some .memberAccess
  else (imbalance? text).map .unbalanced

end Guard
end FormulaLine

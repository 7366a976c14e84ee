import FormulaLine.Formula.Interpreter
import FormulaLine.Guard
import FormulaLine.Split
import FormulaLine.Text.Order
import FormulaLine.Text.Quoted

namespace FormulaLine

/-!
Reading a typed formula as a function of `x`.

A formula that the guard lets through is split and read with every multiplication
written.  It is a function of `x` if its value is an expression in which nothing but
`x` is free, no function outside the vocabulary is called, and nothing is undefined;
these are checked in another order: functions, symbols, definedness.
-/

/-- Why a typed formula is no function of `x`. -/
inductive ParseError where
  | refused (refusal : Guard.Refusal)
  /-- Reading fails in a way that is an error of the formula. -/
  | unreadable (formula : List Char) (failure : Failure)
  | notAnExpression (formula : List Char)
  | unknownFunctions (names : List (List Char))
  | invalidVariables (names : List (List Char))
  | undefined (formula : List Char)
  /-- Reading fails in a way that is not an error of the formula. -/
  | stopped (failure : Failure)

namespace ParseError

/-- The names of invalid variables: a single one as it is, several quoted. -/
def variablesText : List (List Char) → String
  | [name] => "invalid variable: " ++ String.ofList name
  | names => "invalid variables: " ++ String.ofList (Text.quoteList names)

def quoted (formula : List Char) : String :=
  String.ofList (Text.quote formula)

/-- What the message of an unreadable formula says before the failure. -/
def unreadableHead (formula : List Char) : String :=
  "Could not parse " ++ quoted formula

def message : ParseError → String
  | .refused refusal => refusal.message
  | .unreadable formula failure =>
    unreadableHead formula ++ ": " ++ String.ofList failure.message
  | .notAnExpression formula => quoted formula ++ " is not an expression"
  | .unknownFunctions names =>
    "unknown function: " ++ String.ofList ([',', ' '].intercalate names)
  | .invalidVariables names => variablesText names
  | .undefined formula => quoted formula ++ " is undefined"
  | .stopped failure => String.ofList failure.message

def code : ParseError → String
  | .refused refusal => refusal.code
  | .unreadable _ _ => "SYNTAX_ERROR"
  | .notAnExpression _ => "NOT_AN_EXPRESSION"
  | .unknownFunctions _ => "UNKNOWN_FUNCTION"
  | .invalidVariables _ => "INVALID_VARIABLE"
  | .undefined _ => "UNDEFINED"
  | .stopped _ => ""

end ParseError

namespace Formula

/-- The symbol that may be free in a formula. -/
def argument : List Char := ['x']

/-- Guards a typed formula and hands it on to `read` with every multiplication
written; the empty text has no value. -/
def parseBy {α : Type} (read : List Char → Except ParseError α) (limit : Int)
    (text : List Char) : Except ParseError (Option α) :=
  if text.isEmpty then .ok none
  else
    match Guard.refusal? limit text with
    | some refusal => .error (.refused refusal)
    | none => (read (Split.explicit text)).map some

end Formula

namespace Interpreter

variable {α : Type} (I : Interpreter α)

/-- Accepts the value of a formula as a function of `x`. -/
def accept (formula : List Char) : Option α → Except ParseError α
  | none => .error (.notAnExpression formula)
  | some value =>
    let unknown := Text.sort (I.callNames value)
    let invalid := Text.sort ((I.symbolNames value).filter (· != Formula.argument))
    if !unknown.isEmpty then .error (.unknownFunctions unknown)
    else if !invalid.isEmpty then .error (.invalidVariables invalid)
    else if I.isUndefined value then .error (.undefined formula)
    else .ok value

/-- Reads a formula in which every multiplication is written. -/
def readExplicit (formula : List Char) : Except ParseError α :=
  match I.read formula with
  | .ok value => I.accept formula value
  | .error failure =>
    if failure.kind.blamesFormula then .error (.unreadable formula failure)
    else .error (.stopped failure)

/-- Reads a typed formula. -/
def parse (limit : Int) (text : List Char) : Except ParseError (Option α) :=
  Formula.parseBy I.readExplicit limit text

/-- Whether a typed formula is a function of `x`.  A failure that is not an error of
the formula is passed on. -/
def isFunction (limit : Int) (text : List Char) : Except Failure Bool :=
  match I.parse limit text with
  | .ok _ => .ok true
  | .error (.stopped failure) => .error failure
  | .error _ => .ok false

end Interpreter
end FormulaLine

import FormulaLine.Algebra.Render
import FormulaLine.Formula.Evaluate
import FormulaLine.Formula.Parse

namespace FormulaLine

/-!
The interpreter that runs: formulas are read as trees, evaluated to terms, and
printed.
-/

namespace Term

/-- Whether the term can be printed: no number in it has too many digits. -/
def isWritable (t : Term) : Bool :=
  !t.any fun
    | .scalar (.exact q) => Value.isTooLong q.num.natAbs || Value.isTooLong q.den
    | _ => false

end Term

namespace Formula

/-- The value of a text as a formula. -/
def valueOf (text : List Char) : Except Fault Value :=
  match ofText? text with
  | none => .error .malformed
  | some formula => evaluate formula

/-- The term of a value, if the value is an expression. -/
def termOf : Except Fault Value → Except Failure (Option Term)
  | .ok (.term t) => .ok (some t)
  | .ok _ => .ok none
  | .error fault => .error fault.failure

/-- The interpreter that runs. -/
def standard : Interpreter Term where
  release := .ok "1.14.0".toList
  read text := termOf (valueOf text)
  callNames := Term.callNames
  symbolNames := Term.symbols
  isUndefined := Term.isUndefined
  print t := if t.isWritable then .ok t.text else .error Fault.tooManyDigits.failure

/-- Reads a typed formula. -/
def parse (limit : Int) (text : List Char) : Except ParseError (Option Term) :=
  standard.parse limit text

/-- What kind of number or function a term is. -/
inductive Description where
  | rational (value : Rat)
  | float (value : Rat)
  | complexInfinity
  | symbolic (symbols : List (List Char))

def describe (t : Term) : Description :=
  match t with
  | .scalar (.exact q) => .rational q
  | .scalar (.binary b) => .float b.value
  | .complexInfinity => .complexInfinity
  | t => .symbolic t.symbols

end Formula
end FormulaLine

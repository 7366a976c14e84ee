import FormulaLine.Formula.Value

namespace FormulaLine
namespace Formula

/-!
Evaluation of formulas.  Operands are evaluated from left to right, and the first
fault is the fault of the formula.
-/

/-- The value of a decimal number, with the precision that its digits ask for. -/
def decimalValue (text : List Char) : Binary :=
  let (whole, fraction) := text.span (· != '.')
  let fraction := fraction.drop 1
  let digits := (whole ++ fraction).filterMap Text.decimalValue?
  let significant := digits.dropWhile (· == 0)
  let precision := Binary.precisionOfDigits (max Binary.leastDigits significant.length)
  Binary.ofRat precision (mkRat (Text.ofDigits digits) (Nat.pow 10 fraction.length))

/-- The value of an integer. -/
def integerValue (digits : List Char) : Int :=
  Text.ofDigits (digits.filterMap Text.decimalValue?)

/-- The value of a number with the given digits, unless they are too many. -/
def numberValue (digits : List Char) (value : Value) : Except Fault Value :=
  if Text.maxNumeralDigits < digits.length then .error .tooManyDigits else .ok value

/-- The value of a word of the vocabulary. -/
def nameValue (name : List Char) : Except Fault Value :=
  match Builtin.ofSpelling? name, Maker.ofName? name with
  | some f, _ => .ok (.builtin f)
  | none, some maker => .ok (.maker maker)
  | none, none =>
    if name = ['π'] then .ok (.term Term.pi)
    else if name = ['e'] ∨ name = ['E'] then .ok (.term Term.e)
    else .error .rejected

/-- The value of a formula. -/
def evaluate : Formula → Except Fault Value
  | .integer digits => numberValue digits (.ofRat (integerValue digits))
  | .decimal text => numberValue text (.term (.scalar (.binary (decimalValue text))))
  | .name word => nameValue word
  | .variable word => .ok (.term (.symbol word))
  | .function word => .ok (.function word)
  | .unresolved word => .error (.unresolved word)
  | .truth value => .ok (.truth value)
  | .nothing => .ok .nothing
  | .unit => .ok .unit
  | .ellipsis => .ok .ellipsis
  | .plus operand => do (← evaluate operand).positive
  | .minus operand => do (← evaluate operand).negative
  | .binary operation left right => do
    let left ← evaluate left
    let right ← evaluate right
    Value.operate operation left right
  | .member owner word => do
    let owner ← evaluate owner
    .error (.noMember owner.kindName word)
  | .call callee => do
    let callee ← evaluate callee
    callee.call []
  | .callWith callee passing argument => do
    let callee ← evaluate callee
    let argument ← evaluate argument
    match passing, argument with
    | .plain, argument => callee.call [argument]
    | .spread, .unit => callee.call []
    | _, _ => .error .rejected
  | .not operand => do
    let operand ← evaluate operand
    return .truth !operand.isTrue
  | .and left right => do
    let left ← evaluate left
    if left.isTrue then evaluate right else return left
  | .or left right => do
    let left ← evaluate left
    if left.isTrue then return left else evaluate right
  | .compare comparison left right => do
    let left ← evaluate left
    let right ← evaluate right
    return .truth (← Value.compare comparison left right)
  | .chain comparison left right following => do
    let left ← evaluate left
    let right ← evaluate right
    if ← Value.compare comparison left right then evaluate following else return .truth false
  | .choice test yes no => do
    let test ← evaluate test
    if test.isTrue then evaluate yes else evaluate no

end Formula
end FormulaLine

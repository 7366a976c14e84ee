import FormulaLine.Algebra.Function
import FormulaLine.Formula.Interpreter
import FormulaLine.Formula.Tree
import FormulaLine.Text.Numeral

namespace FormulaLine

/-!
Values of formulas.  Most formulas have terms as values; a formula may also name a
function without calling it, or be one of the plain values that reserved words and
empty parentheses stand for.
-/

/-- The functions that make a value out of a value. -/
inductive Maker where
  | integer | float | rational | symbol | function
  deriving DecidableEq

namespace Maker

def name : Maker → List Char
  | .integer => "Integer".toList
  | .float => "Float".toList
  | .rational => "Rational".toList
  | .symbol => "Symbol".toList
  | .function => "Function".toList

def ofName? (name : List Char) : Option Maker :=
  [.integer, .float, .rational, .symbol, .function].find? fun maker => maker.name == name

end Maker

inductive Value where
  | term (value : Term)
  /-- A plain integer, the result of arithmetic with truth values. -/
  | whole (value : Int)
  /-- A quotient or a power of plain integers. -/
  | ratio
  | truth (value : Bool)
  | nothing
  | unit
  | ellipsis
  | builtin (function : Builtin)
  | maker (maker : Maker)
  /-- A function outside the vocabulary. -/
  | function (name : List Char)

/-- Why a formula has no value. -/
inductive Fault where
  /-- The text is no formula. -/
  | malformed
  /-- An operation does not apply to its operands. -/
  | rejected
  /-- A word has no meaning. -/
  | unresolved (name : List Char)
  /-- An integer has more digits than integers are written or read with. -/
  | tooManyDigits
  /-- An integer is divided by the integer zero. -/
  | divisionByZero
  /-- An integer is divided by a binary zero. -/
  | moduloByZero
  /-- A quotient of plain integers with the divisor zero. -/
  | quotientByZero
  /-- A value has no member of that name. -/
  | noMember (owner : String) (name : List Char)

namespace Fault

def kind : Fault → FailureKind
  | .malformed => .grammar
  | .rejected => .type
  | .unresolved _ => .name
  | .tooManyDigits => .value
  | .divisionByZero | .moduloByZero | .quotientByZero => .zeroDivision
  | .noMember _ _ => .member

/-- What is said of the fault.  One wording stands for all texts that are no formula, and
one for all operands that do not fit. -/
def message : Fault → String
  | .malformed => "invalid syntax (<string>, line 1)"
  | .rejected => "unsupported operand"
  | .unresolved name => "name '" ++ String.ofList name ++ "' is not defined"
  | .tooManyDigits =>
    s!"Exceeds the limit ({Text.maxNumeralDigits} digits) for integer string conversion; " ++
      "use sys.set_int_max_str_digits() to increase the limit"
  | .divisionByZero => "integer division or modulo by zero"
  | .moduloByZero => "modulo by zero"
  | .quotientByZero => "division by zero"
  | .noMember owner name => owner ++ " has no attribute '" ++ String.ofList name ++ "'"

def failure (fault : Fault) : Failure :=
  ⟨fault.kind, fault.message.toList⟩

end Fault

namespace Term

/-- The kind of a term, as messages name it. -/
def kindName : Term → String
  | .scalar (.exact q) =>
    if q = 0 then "Zero"
    else if q = 1 then "One"
    else if q = -1 then "NegativeOne"
    else if q = mkRat 1 2 then "Half"
    else if q.den = 1 then "Integer"
    else "Rational"
  | .scalar (.binary _) => "Float"
  | .scalar (.infinity false) => "Infinity"
  | .scalar (.infinity true) => "NegativeInfinity"
  | .scalar .undefined => "NaN"
  | .complexInfinity => "ComplexInfinity"
  | .constant .pi => "Pi"
  | .constant .e => "Exp1"
  | .constant .i => "ImaginaryUnit"
  | .symbol _ => "Symbol"
  | .sum _ => "Add"
  | .product _ => "Mul"
  | .power (.constant .e) _ => "exp"
  | .power _ _ => "Pow"
  | .apply .abs _ => "Abs"
  | .apply .sign _ => "sign"
  | .apply .floor _ => "floor"
  | .apply .ceiling _ => "ceiling"
  | .apply .sin _ => "sin"
  | .apply .cos _ => "cos"
  | .apply .tan _ => "tan"
  | .apply .asin _ => "asin"
  | .apply .acos _ => "acos"
  | .apply .atan _ => "atan"
  | .apply .sinh _ => "sinh"
  | .apply .cosh _ => "cosh"
  | .apply .tanh _ => "tanh"
  | .apply .log _ => "log"
  | .apply .step _ => "Piecewise"
  | .call name _ => String.ofList name
  | .foreign name => String.ofList name

end Term

namespace Value

def ofRat (q : Rat) : Value := .term (Term.ofRat q)

/-- How messages name the kind of a function of the vocabulary: most are types of
terms, some are plain functions. -/
def builtinKind : Builtin → String
  | .abs => "type object 'Abs'"
  | .sin => "type object 'sin'"
  | .cos => "type object 'cos'"
  | .tan => "type object 'tan'"
  | .asin => "type object 'asin'"
  | .acos => "type object 'acos'"
  | .atan => "type object 'atan'"
  | .sinh => "type object 'sinh'"
  | .cosh => "type object 'cosh'"
  | .tanh => "type object 'tanh'"
  | .floor => "type object 'floor'"
  | .ceil => "type object 'ceiling'"
  | .exp => "type object 'exp'"
  | .ln => "type object 'log'"
  | .signum | .round | .trunc | .fract | .sqrt | .cbrt | .log2 | .log10 => "'function' object"

/-- How messages name the owner of a missing member. -/
def kindName : Value → String
  | .term t => "'" ++ t.kindName ++ "' object"
  | .whole _ => "'int' object"
  | .ratio => "'float' object"
  | .truth _ => "'bool' object"
  | .nothing => "'NoneType' object"
  | .unit => "'tuple' object"
  | .ellipsis => "'ellipsis' object"
  | .builtin f => builtinKind f
  | .maker m => "type object '" ++ String.ofList m.name ++ "'"
  | .function name => "type object '" ++ String.ofList name ++ "'"

/-- The plain integer that a value counts as. -/
def plain? : Value → Option Int
  | .whole n => some n
  | .truth b => some (if b then 1 else 0)
  | _ => none

/-- Whether a value counts as true. -/
def isTrue : Value → Bool
  | .term (.scalar s) => !s.isZero
  | .whole n => n != 0
  | .truth b => b
  | .nothing => false
  | .unit => false
  | _ => true

/-- Whether two values are one and the same.  Binary numbers are made anew each
time and are never the same. -/
def isSame : Value → Value → Bool
  | .term (.scalar (.binary _)), _ => false
  | .term a, .term b => Term.same a b
  | .whole m, .whole n => m == n
  | .truth a, .truth b => a == b
  | .nothing, .nothing => true
  | .unit, .unit => true
  | .ellipsis, .ellipsis => true
  | .builtin f, .builtin g => f == g
  | .maker m, .maker n => m == n
  | _, _ => false

/-! ### Arithmetic -/

/-- The quotient of a number by a nonzero finite number, rounded down.  The
quotient is cut toward zero and then lowered by one if it is negative; that is
undone for a binary divisor that goes into the number exactly. -/
def floorQuotient (a b : Rat) (binaryDivisor : Bool) : Int :=
  let q := a / b
  if 0 ≤ q then q.floor
  else if binaryDivisor && q.den = 1 then q.num
  else q.ceil - 1

/-- The quotient of terms, rounded down.  Only the division of an integer by a
number fails for the divisor zero. -/
def floorDivide (a b : Term) : Except Fault Term :=
  match a.integer?, b with
  | some m, .scalar (.exact q) =>
    if q = 0 then .error .divisionByZero
    else if q.den = 1 then .ok (Term.ofInt (m.fdiv q.num))
    else .ok (Term.ofInt (floorQuotient m q false))
  | some m, .scalar (.binary d) =>
    if d.value = 0 then .error .moduloByZero
    else .ok (Term.ofInt (floorQuotient m d.value true))
  | some m, .scalar (.infinity negative) =>
    .ok (Term.ofInt (if m = 0 ∨ (m < 0 ↔ negative) then 0 else -1))
  | _, b => .ok (Term.floor (Term.div a b))

def onTerms (operation : Operation) (a b : Term) : Except Fault Value :=
  match operation with
  | .add => .ok (.term (Term.add a b))
  | .sub => .ok (.term (Term.sub a b))
  | .mul => .ok (.term (Term.mul a b))
  | .div => .ok (.term (Term.div a b))
  | .floorDiv => (floorDivide a b).map .term
  | .pow => .ok (.term (Term.pow a b))

/-- Operations of plain integers. -/
def onPlain (operation : Operation) (m n : Int) : Except Fault Value :=
  match operation with
  | .add => .ok (.whole (m + n))
  | .sub => .ok (.whole (m - n))
  | .mul => .ok (.whole (m * n))
  | .div => if n = 0 then .error .quotientByZero else .ok .ratio
  | .floorDiv => if n = 0 then .error .divisionByZero else .ok (.whole (m.fdiv n))
  | .pow =>
    if 0 ≤ n then .ok (.whole (Int.pow m n.toNat))
    else if m = 0 then .error .quotientByZero
    else .ok .ratio

/-- Operations of an integer term and a plain integer. -/
def onMixed (operation : Operation) (a : Term) (n : Int) (plainLeft : Bool) :
    Except Fault Value :=
  match a.integer? with
  | none => .error .rejected
  | some m =>
    let (left, right) := if plainLeft then (n, m) else (m, n)
    match operation with
    | .add => .ok (ofRat (left + right : Int))
    | .sub => .ok (ofRat (left - right : Int))
    | .mul => .ok (ofRat (left * right : Int))
    | .floorDiv =>
      if !plainLeft then .error .rejected
      else if right = 0 then .error .divisionByZero
      else .ok (ofRat (left.fdiv right : Int))
    | _ => .error .rejected

/-- Applies a binary operation. -/
def operate (operation : Operation) (a b : Value) : Except Fault Value :=
  match a, b with
  | .term a, .term b => onTerms operation a b
  | .unit, .unit => if operation = .add then .ok .unit else .error .rejected
  | .unit, .term t =>
    if operation = .mul ∧ t.integer?.isSome then .ok .unit else .error .rejected
  | .term t, .unit =>
    if operation = .mul ∧ t.integer?.isSome then .ok .unit else .error .rejected
  | .unit, b => if operation = .mul ∧ b.plain?.isSome then .ok .unit else .error .rejected
  | a, .unit => if operation = .mul ∧ a.plain?.isSome then .ok .unit else .error .rejected
  | .term t, b =>
    match b.plain? with
    | some n => onMixed operation t n false
    | none => .error .rejected
  | a, .term t =>
    match a.plain? with
    | some n => onMixed operation t n true
    | none => .error .rejected
  | a, b =>
    match a.plain?, b.plain? with
    | some m, some n => onPlain operation m n
    | _, _ => .error .rejected

/-- The value with a plus sign. -/
def positive (a : Value) : Except Fault Value :=
  match a, a.plain? with
  | .term t, _ => .ok (.term t)
  | _, some n => .ok (.whole n)
  | _, none => .error .rejected

/-- The value with a minus sign. -/
def negative (a : Value) : Except Fault Value :=
  match a, a.plain? with
  | .term t, _ => .ok (.term (Term.neg t))
  | _, some n => .ok (.whole (-n))
  | _, none => .error .rejected

def compare (comparison : Comparison) (a b : Value) : Except Fault Bool :=
  match comparison, b with
  | .identical, b => .ok (isSame a b)
  | .different, b => .ok !(isSame a b)
  | .contains, .unit => .ok false
  | .containsNot, .unit => .ok true
  | _, _ => .error .rejected

/-! ### Calls -/

/-- The integer part toward zero of a real constant. -/
def integerPart? (t : Term) : Option Int :=
  match t with
  | .scalar (.exact q) => some (Rounding.trunc q)
  | .scalar (.binary b) => some (Rounding.trunc b.value)
  | t =>
    match t.constantSign? with
    | some true => t.constantFloor?
    | some false => (Term.neg t).constantFloor?.map fun n => -n
    | none => none

/-- The count of decimal digits of a number. -/
def digitCount (n : Nat) : Nat :=
  (Nat.toDigits 10 n).length

/-- Whether a number has more digits than integers are written with. -/
def isTooLong (n : Nat) : Bool :=
  Nat.pow 10 Text.maxNumeralDigits ≤ n

/-- The binary number that is nearest to a term.  An integer goes through its digits. -/
def toBinary (t : Term) : Except Fault Term :=
  match t with
  | .scalar (.binary b) => .ok (.scalar (.binary b))
  | .scalar (.exact q) =>
    if q.den = 1 && isTooLong q.num.natAbs then .error .tooManyDigits
    else
      let digits := if q.den = 1 then max Binary.leastDigits (digitCount q.num.natAbs)
        else Binary.leastDigits
      .ok (.scalar (.binary (Binary.ofRat (Binary.precisionOfDigits digits) q)))
  | .scalar s => .ok (.scalar s)
  | .constant .i => .error .rejected
  | .constant c =>
    let precision := Binary.precisionOfDigits Binary.leastDigits
    match Term.constantRounded? precision (.constant c) with
    | some value => .ok (.scalar (.binary { value, precision }))
    | none => .error .rejected
  | _ => .error .rejected

/-- Applies a maker. -/
def make (maker : Maker) (argument : Value) : Except Fault Value :=
  match maker, argument with
  | .integer, .term t =>
    match integerPart? t with
    | some n => .ok (ofRat n)
    | none => .error .rejected
  | .float, .term t => (toBinary t).map .term
  | .rational, .term (.scalar (.exact q)) => .ok (ofRat q)
  | .rational, .term (.scalar (.binary b)) => .ok (ofRat b.value)
  | .function, .term (.symbol name) => .ok (.function name)
  | .integer, argument | .rational, argument =>
    match argument.plain? with
    | some n => .ok (ofRat n)
    | none => .error .rejected
  | _, _ => .error .rejected

/-- A value as the argument of a function outside the vocabulary. -/
def asArgument (argument : Value) : Except Fault Term :=
  match argument with
  | .term t => .ok t
  | .whole n => .ok (Term.ofInt n)
  | .truth b => .ok (.foreign (if b then "True".toList else "False".toList))
  | .unit => .ok (.foreign "()".toList)
  | .nothing => .error (.noMember "'NoneType' object" "is_Float".toList)
  | .maker m => .ok (.foreign m.name)
  | .builtin f =>
    if (builtinKind f).startsWith "type" then .ok (.foreign f.spelling) else .error .rejected
  | .ratio | .ellipsis | .function _ => .error .rejected

/-- Calls a value with its arguments, of which there is at most one. -/
def call (function : Value) (arguments : List Value) : Except Fault Value :=
  match function, arguments with
  | .builtin f, [.term t] =>
    match Term.applyBuiltin f t with
    | .ok t => .ok (.term t)
    | .error _ => .error .rejected
  | .builtin f, [.whole n] =>
    match Term.applyBuiltin f (Term.ofInt n) with
    | .ok t => .ok (.term t)
    | .error _ => .error .rejected
  | .maker m, [argument] => make m argument
  | .function name, arguments =>
    (arguments.mapM asArgument).map fun arguments => .term (.call name arguments)
  | _, _ => .error .rejected

end Value
end FormulaLine

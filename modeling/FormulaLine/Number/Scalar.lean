import FormulaLine.Number.Binary

namespace FormulaLine

/-!
The numbers of the algebra: exact rationals, binary numbers, the two signed
infinities, and the undefined number that absorbs everything.

An exact number that meets a binary one is first rounded to its precision.  An
operation whose binary result is zero gives the exact zero.
-/

inductive Scalar where
  | exact (value : Rat)
  | binary (value : Binary)
  | infinity (negative : Bool)
  | undefined

namespace Scalar

def zero : Scalar := .exact 0
def one : Scalar := .exact 1
def minusOne : Scalar := .exact (-1)

def ofInt (n : Int) : Scalar := .exact n

/-- A binary result, or the exact zero. -/
def ofBinary (precision : Nat) (value : Rat) : Scalar :=
  if value = 0 then zero else .binary { value, precision }

/-- The value of a finite number. -/
def value? : Scalar → Option Rat
  | .exact value => some value
  | .binary b => some b.value
  | _ => none

/-- The value of an exact number. -/
def rational? : Scalar → Option Rat
  | .exact value => some value
  | _ => none

def isExact (a : Scalar) : Bool := a.rational?.isSome

def isInteger : Scalar → Bool
  | .exact value => value.den == 1
  | _ => false

/-- The value of an exact integer. -/
def integer? : Scalar → Option Int
  | .exact value => if value.den = 1 then some value.num else none
  | _ => none

def isOne (a : Scalar) : Bool := a.rational? == some 1

def isZero (a : Scalar) : Bool := a.value? == some 0

def isNegative : Scalar → Bool
  | .exact value => decide (value < 0)
  | .binary b => decide (b.value < 0)
  | .infinity negative => negative
  | .undefined => false

def isPositive : Scalar → Bool
  | .exact value => decide (0 < value)
  | .binary b => decide (0 < b.value)
  | .infinity negative => !negative
  | .undefined => false

def isFinite (a : Scalar) : Bool := a.value?.isSome

def isUndefined : Scalar → Bool
  | .undefined => true
  | _ => false

def neg : Scalar → Scalar
  | .exact value => .exact (-value)
  | .binary b => .binary { b with value := -b.value }
  | .infinity negative => .infinity !negative
  | .undefined => .undefined

/-- Applies an operation of binary numbers to two finite numbers, at the greater
of their precisions. -/
def binaryOp (op : Rat → Rat → Rat) (precision : Nat) (a b : Rat) : Scalar :=
  ofBinary precision (Binary.roundTo precision (op a b))

def add : Scalar → Scalar → Scalar
  | .undefined, _ => .undefined
  | _, .undefined => .undefined
  | .infinity m, .infinity n => if m = n then .infinity m else .undefined
  | .infinity m, _ => .infinity m
  | _, .infinity n => .infinity n
  | .exact a, .exact b => .exact (a + b)
  | .exact a, .binary b =>
    binaryOp (· + ·) b.precision (Binary.roundTo b.precision a) b.value
  | .binary a, .exact b =>
    binaryOp (· + ·) a.precision a.value (Binary.roundTo a.precision b)
  | .binary a, .binary b =>
    binaryOp (· + ·) (max a.precision b.precision) a.value b.value

/-- The infinity with the sign of a product, or undefined for a zero factor. -/
def infinityTimes (negative : Bool) (a : Scalar) : Scalar :=
  if a.isPositive then .infinity negative
  else if a.isNegative then .infinity !negative
  else .undefined

def mul : Scalar → Scalar → Scalar
  | .undefined, _ => .undefined
  | _, .undefined => .undefined
  | .infinity m, b => infinityTimes m b
  | a, .infinity n => infinityTimes n a
  | .exact a, .exact b => .exact (a * b)
  | .exact a, .binary b =>
    binaryOp (· * ·) b.precision (Binary.roundTo b.precision a) b.value
  | .binary a, .exact b =>
    binaryOp (· * ·) a.precision a.value (Binary.roundTo a.precision b)
  | .binary a, .binary b =>
    binaryOp (· * ·) (max a.precision b.precision) a.value b.value

/-- Sign and size of a number. -/
def abs (a : Scalar) : Scalar :=
  if a.isZero then zero else if a.isNegative then a.neg else a

/-- The quotient of a binary number by a nonzero finite number. -/
def binaryDiv (a : Binary) : Scalar → Scalar
  | .exact b => binaryOp (· / ·) a.precision a.value (Binary.roundTo a.precision b)
  | .binary b => binaryOp (· / ·) (max a.precision b.precision) a.value b.value
  | _ => .undefined

/-- The quotient of two finite numbers, the second other than zero.  A rational is
divided by a binary number by multiplying with the rounded inverse. -/
def div : Scalar → Scalar → Scalar
  | .exact a, .exact b => .exact (a / b)
  | .exact a, .binary b =>
    mul (.exact a) (ofBinary b.precision (Binary.roundTo b.precision (1 / b.value)))
  | .binary a, b => binaryDiv a b
  | _, _ => .undefined

/-- The order that lists scalars of one kind by value. -/
def compare : Scalar → Scalar → Ordering
  | .exact a, .exact b => if a < b then .lt else if a = b then .eq else .gt
  | .exact _, _ => .lt
  | .binary _, .exact _ => .gt
  | .binary a, .binary b =>
    (if a.value < b.value then .lt else if a.value = b.value then .eq else .gt : Ordering).then
      (Ord.compare a.precision b.precision)
  | .binary _, _ => .lt
  | .infinity m, .infinity n => Ord.compare m n
  | .infinity _, .undefined => .lt
  | .infinity _, _ => .gt
  | .undefined, .undefined => .eq
  | .undefined, _ => .gt

end Scalar
end FormulaLine

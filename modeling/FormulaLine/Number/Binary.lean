namespace FormulaLine

/-!
Binary floating-point numbers of any precision.  A number is a dyadic rational
together with the count of significant bits that its operations keep.  Results
are rounded to nearest, and a tie goes to the even neighbour.
-/

structure Binary where
  value : Rat
  /-- How many significant bits results keep. -/
  precision : Nat

namespace Binary

/-- Two to an integer power. -/
def twoPow (exponent : Int) : Rat :=
  match exponent with
  | .ofNat n => ((1 <<< n : Nat) : Rat)
  | .negSucc n => mkRat 1 (1 <<< (n + 1))

/-- A quotient of natural numbers rounded to nearest, ties to even. -/
def divNearest (a b : Nat) : Nat :=
  let quotient := a / b
  let twice := 2 * (a % b)
  if twice < b then quotient
  else if b < twice then quotient + 1
  else quotient + quotient % 2

/-- The quotient `a / b` times two to the power `-shift`, as a quotient. -/
def scaleDown (a b : Nat) (shift : Int) : Nat × Nat :=
  match shift with
  | .ofNat n => (a, b <<< n)
  | .negSucc n => (a <<< (n + 1), b)

/-- The number of bits of a natural number. -/
def bitLength (n : Nat) : Nat :=
  if n = 0 then 0 else n.log2 + 1

/-- The exponent of the last of the `precision` significant bits of `a / b`. -/
def lastBit (precision a b : Nat) : Int :=
  let guess := (bitLength a : Int) - bitLength b - precision
  let (a', b') := scaleDown a b guess
  if bitLength (a' / b') ≤ precision then guess else guess + 1

/-- The nearest number with at most `precision` significant bits. -/
def roundTo (precision : Nat) (q : Rat) : Rat :=
  if q.num = 0 then 0
  else
    let shift := lastBit precision q.num.natAbs q.den
    let (a, b) := scaleDown q.num.natAbs q.den shift
    let rounded := (divNearest a b : Rat) * twoPow shift
    if q.num < 0 then -rounded else rounded

/-- The number with the given precision that is nearest to a rational. -/
def ofRat (precision : Nat) (q : Rat) : Binary where
  value := roundTo precision q
  precision := precision

/-- The precision that keeps the given count of decimal digits: the bits of one
more digit, to the nearest integer. -/
def precisionOfDigits (digits : Nat) : Nat :=
  max 1 (divNearest ((digits + 1) * 33219280948873626) 10000000000000000)

/-- The least count of decimal digits that a written number keeps. -/
def leastDigits : Nat := 15

/-- The bits and the exponent of the last bit of a dyadic magnitude. -/
def mantissa (q : Rat) : Nat × Int :=
  (q.num.natAbs, -((bitLength q.den : Int) - 1))

/-- Cuts a mantissa down to a count of bits. -/
def truncateTo (bits : Nat) (m : Nat × Int) : Nat × Int :=
  let excess := bitLength m.1 - bits
  (m.1 >>> excess, m.2 + excess)

/-- Powers of a mantissa by repeated squaring, where intermediate results are cut
to `bits` bits. -/
def powMantissa (bits : Nat) : Nat → Nat × Int → Nat → Nat × Int → Nat × Int
  | 0, result, _, _ => result
  | fuel + 1, result, n, square =>
    let result :=
      if n % 2 = 1 then truncateTo bits (result.1 * square.1, result.2 + square.2) else result
    if n ≤ 1 then result
    else powMantissa bits fuel result (n / 2) (truncateTo bits (square.1 * square.1, 2 * square.2))

/-- Most bits for which a power is computed exactly before it is rounded. -/
def exactPowerBits : Nat := 1000

/-- A natural power rounded to the precision. -/
def powNat (precision : Nat) (q : Rat) (n : Nat) : Rat :=
  let (m, e) := mantissa q
  if n ≤ 2 ∨ m ≤ 1 ∨ bitLength m * n < exactPowerBits then
    if m = 1 then
      (if q.num < 0 ∧ n % 2 = 1 then -1 else 1) * twoPow (e * n)
    else roundTo precision (q ^ n)
  else
    let working := precision + 4 * bitLength n + 4
    let (m', e') := powMantissa working (bitLength n) (1, 0) n (m, e)
    let magnitude := roundTo precision ((m' : Rat) * twoPow e')
    if q.num < 0 ∧ n % 2 = 1 then -magnitude else magnitude

/-- An integer power of a nonzero number rounded to the precision.  A negative
power is the rounded inverse of a power with five more bits. -/
def powInt (precision : Nat) (q : Rat) (n : Int) : Rat :=
  match n with
  | .ofNat n => powNat precision q n
  | .negSucc 0 => roundTo precision (1 / q)
  | .negSucc n => roundTo precision (1 / powNat (precision + 5) q (n + 1))

end Binary
end FormulaLine

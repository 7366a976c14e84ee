import FormulaLine.Number.Binary
import FormulaLine.Number.Interval

namespace FormulaLine
namespace Binary

/-!
Roots, exponentials and powers of binary numbers.  A result that is not exact is
enclosed with more and more bits until both ends of the enclosure round to the
same number, which then is the correctly rounded result.
-/

/-- The counts of bits that are tried in turn. -/
def enclosureBits : List Nat := [128, 256, 512, 1024, 2048, 4096]

/-- The nonzero number that all numbers of the enclosures round to. -/
def roundEnclosed? (precision : Nat) (enclose : Nat → Option Interval) : Option Rat :=
  enclosureBits.findSome? fun p =>
    (enclose p).bind fun interval =>
      let low := roundTo precision (mkRat interval.lo (1 <<< p))
      if low = roundTo precision (mkRat interval.hi (1 <<< p)) ∧ low ≠ 0 then some low else none

/-- The rounded square root of a positive number.  The root is taken with twice
the needed bits; a final bit tells whether something was cut off. -/
def sqrt (precision : Nat) (q : Rat) : Rat :=
  let bits := precision + q.den.log2 + 4
  let scaled := q.num.natAbs <<< (2 * bits) / q.den
  let root := Nat.sqrt scaled
  let sticky := if root * root = scaled ∧ q.num.natAbs <<< (2 * bits) % q.den = 0 then 0 else 1
  roundTo precision (mkRat (2 * root + sticky) (1 <<< (bits + 1)))

def exp? (precision : Nat) (q : Rat) : Option Rat :=
  if q = 0 then some 1
  else roundEnclosed? precision fun p => Interval.exp? p (Interval.ofRat p q)

def log? (precision : Nat) (q : Rat) : Option Rat :=
  if q = 1 then some 0
  else roundEnclosed? precision fun p => Interval.log? p (Interval.ofRat p q)

/-- Largest size of an exponent. -/
def maxExponent : Nat := 1 <<< 40

/-- A positive number raised to an exponent.  Integer exponents multiply, odd
multiples of a half go through the square root, and all others through the
logarithm with ten more bits. -/
def pow? (precision : Nat) (base exponent : Rat) : Option Rat :=
  if maxExponent * exponent.den < exponent.num.natAbs then none
  else if base = 1 then some 1
  else if exponent.den = 1 then some (powInt precision base exponent.num)
  else if exponent.den = 2 then
    if exponent.num = 1 then some (sqrt precision base)
    else some (powInt precision (sqrt (precision + 10) base) exponent.num)
  else do exp? precision (exponent * (← log? (precision + 10) base))

end Binary
end FormulaLine

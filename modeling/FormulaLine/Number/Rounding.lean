namespace FormulaLine
namespace Rounding

/-!
Rounding of rational numbers.  Truncation goes toward zero, a half is rounded
away from zero, the fractional part keeps the sign of the number, and zero has
the signum one.
-/

/-- The sign as an integer, zero for zero. -/
def sign (q : Rat) : Int :=
  if q < 0 then -1 else if q = 0 then 0 else 1

def magnitude (q : Rat) : Rat :=
  if q < 0 then -q else q

/-- One for zero and positive numbers, minus one for negative numbers. -/
def signum (q : Rat) : Int :=
  if 0 ≤ q then 1 else -1

/-- The integer nearest to the number among those between it and zero. -/
def trunc (q : Rat) : Int :=
  sign q * (magnitude q).floor

/-- A nearest integer, the one further from zero if two are equally near. -/
def round (q : Rat) : Int :=
  sign q * (magnitude q + 1 / 2).floor

/-- What truncation takes away. -/
def fract (q : Rat) : Rat :=
  q - trunc q

/-- The quotient rounded down, for a divisor other than zero. -/
def floorDiv (a b : Rat) : Int :=
  (a / b).floor

end Rounding
end FormulaLine

import FormulaLine.Number.Interval

namespace FormulaLine

/-!
Powers of natural numbers with rational exponents, taken apart into a rational
number and radicals.  A radical is a base with an exponent between zero and one;
its base is a prime, or the part of a number that trial division does not take
apart.
-/

/-- A product of a rational number and radicals. -/
structure Radical where
  coefficient : Rat
  /-- Bases with exponents between zero and one. -/
  roots : List (Nat × Rat)

namespace Radical

/-- How often a divisor goes into a number, and what is left of it. -/
def extract (divisor : Nat) : Nat → Nat → Nat × Nat
  | 0, n => (0, n)
  | fuel + 1, n =>
    if 1 < divisor ∧ 0 < n ∧ n % divisor = 0 then
      let (count, rest) := extract divisor fuel (n / divisor)
      (count + 1, rest)
    else (0, n)

/-- Largest trial divisor. -/
def maxDivisor : Nat := 1 <<< 15

/-- Trial division by odd numbers from `divisor` on. -/
def oddFactors : Nat → Nat → Nat → List (Nat × Nat) × Nat
  | 0, _, n => ([], n)
  | fuel + 1, divisor, n =>
    if n < divisor * divisor then ([], n)
    else if n % divisor = 0 then
      let (count, rest) := extract divisor (n.log2 + 1) n
      let (factors, left) := oddFactors fuel (divisor + 2) rest
      ((divisor, count) :: factors, left)
    else oddFactors fuel (divisor + 2) n

/-- The base and the exponent of a perfect power, tried from the exponent
`fuel` down; any other number is its own first power. -/
def perfectPower (n : Nat) : Nat → Nat × Nat
  | 0 => (n, 1)
  | fuel + 1 =>
    let root := Interval.floorRoot (fuel + 1) n
    if root ^ (fuel + 1) = n then (root, fuel + 1) else perfectPower n fuel

/-- Bases with multiplicities whose product is the number. -/
def factor (n : Nat) : List (Nat × Nat) :=
  let (twos, odd) := extract 2 (n.log2 + 1) n
  let (factors, left) := oddFactors (maxDivisor / 2) 3 odd
  let small := if twos = 0 then factors else (2, twos) :: factors
  if left ≤ 1 then small
  else small ++ [perfectPower left (max 1 (left.log2 / 15))]

def one : Radical where
  coefficient := 1
  roots := []

def mul (a b : Radical) : Radical where
  coefficient := a.coefficient * b.coefficient
  roots := a.roots ++ b.roots

/-- A base raised to a rational exponent: the integer part of the exponent goes
into the coefficient. -/
def power (base : Nat) (exponent : Rat) : Radical :=
  let whole := exponent.floor
  let rest := exponent - whole
  { coefficient := (base : Rat) ^ whole
    roots := if rest = 0 then [] else [(base, rest)] }

/-- A natural number raised to a rational exponent. -/
def ofNat (n : Nat) (exponent : Rat) : Radical :=
  (factor n).foldl (fun product (base, count) => product.mul (power base (count * exponent))) one

/-- A positive rational number raised to a rational exponent. -/
def ofRat (q : Rat) (exponent : Rat) : Radical :=
  (ofNat q.num.natAbs exponent).mul (ofNat q.den (-exponent))

end Radical
end FormulaLine

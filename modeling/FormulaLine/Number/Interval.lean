namespace FormulaLine

/-!
Enclosures of real numbers.  An interval at `p` bits consists of integer
endpoints in units of two to the power `-p`.  Every operation rounds outward, so
its result encloses the exact result for all numbers in its arguments.  The
series are summed in interval arithmetic, and a bound on what they leave out is
added to the last interval.
-/

structure Interval where
  lo : Int
  hi : Int

namespace Interval

/-- One at `p` bits. -/
def unit (p : Nat) : Int := (1 <<< p : Nat)

def floorDiv (a b : Int) : Int := a.fdiv b

def ceilDiv (a b : Int) : Int := -((-a).fdiv b)

def ofInt (p : Nat) (n : Int) : Interval where
  lo := n * unit p
  hi := n * unit p

def ofRat (p : Nat) (q : Rat) : Interval where
  lo := floorDiv (q.num * unit p) q.den
  hi := ceilDiv (q.num * unit p) q.den

def add (a b : Interval) : Interval where
  lo := a.lo + b.lo
  hi := a.hi + b.hi

def neg (a : Interval) : Interval where
  lo := -a.hi
  hi := -a.lo

def sub (a b : Interval) : Interval := a.add b.neg

/-- Widens an interval by a count of units on both sides. -/
def widen (a : Interval) (units : Int) : Interval where
  lo := a.lo - units
  hi := a.hi + units

def mul (p : Nat) (a b : Interval) : Interval :=
  let w := a.lo * b.lo
  let x := a.lo * b.hi
  let y := a.hi * b.lo
  let z := a.hi * b.hi
  { lo := floorDiv (min (min w x) (min y z)) (unit p)
    hi := ceilDiv (max (max w x) (max y z)) (unit p) }

def mulInt (a : Interval) (n : Int) : Interval where
  lo := min (a.lo * n) (a.hi * n)
  hi := max (a.lo * n) (a.hi * n)

def divNat (a : Interval) (n : Nat) : Interval where
  lo := floorDiv a.lo n
  hi := ceilDiv a.hi n

/-- The inverses of an interval that does not hold zero. -/
def inv? (p : Nat) (a : Interval) : Option Interval :=
  if 0 < a.lo ∨ a.hi < 0 then
    let square := unit p * unit p
    some { lo := floorDiv square a.hi, hi := ceilDiv square a.lo }
  else none

/-- Raises to a power below two to the `fuel` by repeated squaring. -/
def powSteps (p : Nat) : Nat → Interval → Nat → Interval
  | 0, _, _ => ofInt p 1
  | fuel + 1, a, n =>
    if n = 0 then ofInt p 1
    else
      let rest := powSteps p fuel (a.mul p a) (n / 2)
      if n % 2 = 1 then rest.mul p a else rest

def powNat (p : Nat) (a : Interval) (n : Nat) : Interval :=
  powSteps p (n.log2 + 1) a n

/-- The largest number below two to the power `bits` whose `n`-th power is at
most `m`, found bit by bit. -/
def floorRootBits (n m : Nat) : Nat → Nat → Nat
  | 0, root => root
  | bits + 1, root =>
    let candidate := root + 1 <<< bits
    floorRootBits n m bits (if candidate ^ n ≤ m then candidate else root)

/-- The integer part of the `n`-th root, for a positive `n`. -/
def floorRoot (n m : Nat) : Nat :=
  if n = 1 then m
  else if n = 2 then Nat.sqrt m
  else floorRootBits n m (m.log2 / n + 1) 0

/-- The `n`-th roots of an interval of positive numbers. -/
def root? (p n : Nat) (a : Interval) : Option Interval :=
  if 0 ≤ a.lo then
    let scale := 1 <<< (p * (n - 1))
    some
      { lo := floorRoot n (a.lo.toNat * scale)
        hi := floorRoot n (a.hi.toNat * scale) + 1 }
  else none

/-- The series `r - r³/3 + r⁵/5 - …` or, without alternation, `r + r³/3 + …`,
by Horner's rule from the term with index `terms`; `square` is the square of
`r`, negated where the signs alternate. -/
def oddSeries (p : Nat) (square : Interval) : Nat → Nat → Interval
  | 0, index => (ofInt p 1).divNat (2 * index + 1)
  | terms + 1, index =>
    ((ofInt p 1).divNat (2 * index + 1)).add (square.mul p (oddSeries p square terms (index + 1)))

/-- The inverse hyperbolic tangent of numbers up to a third in size. -/
def atanhSmall (p : Nat) (r : Interval) : Interval :=
  ((oddSeries p (r.mul p r) (p / 3 + 8) 0).mul p r).widen 1

/-- The arc tangent of numbers up to a fifth in size. -/
def atanSmall (p : Nat) (r : Interval) : Interval :=
  ((oddSeries p (r.mul p r).neg (p / 4 + 8) 0).mul p r).widen 1

def ln2 (p : Nat) : Interval :=
  (atanhSmall p (ofRat p (mkRat 1 3))).mulInt 2

def pi (p : Nat) : Interval :=
  (((atanSmall p (ofRat p (mkRat 1 5))).mulInt 4).sub
    (atanSmall p (ofRat p (mkRat 1 239)))).mulInt 4

/-- The series of the exponential function, from the term with index `index`. -/
def expSeries (p : Nat) (r : Interval) : Nat → Nat → Interval
  | 0, _ => ofInt p 1
  | terms + 1, index =>
    (ofInt p 1).add ((r.mul p (expSeries p r terms (index + 1))).divNat index)

/-- Squares an interval a number of times. -/
def squareTimes (p : Nat) : Nat → Interval → Interval
  | 0, a => a
  | n + 1, a => squareTimes p n (a.mul p a)

/-- Largest argument, as a power of two, whose exponential is enclosed. -/
def maxExpBits : Nat := 17

def exp? (p : Nat) (a : Interval) : Option Interval :=
  let size := (max a.lo.natAbs a.hi.natAbs) >>> p
  if size.log2 + 1 ≤ maxExpBits then
    let halvings := size.log2 + 2
    let r := a.divNat (1 <<< halvings)
    some (squareTimes p halvings ((expSeries p r (p / 4 + 12) 1).widen 1))
  else none

/-- The logarithms of a positive number in units of two to the power `-p`. -/
def logPoint (p : Nat) (m : Nat) : Interval :=
  let shift : Int := (m.log2 : Int) - p
  let reduced : Interval :=
    match shift with
    | .ofNat n => { lo := (m >>> n : Nat), hi := (m >>> n : Nat) + 1 }
    | .negSucc n => { lo := (m <<< (n + 1) : Nat), hi := (m <<< (n + 1) : Nat) }
  let one := ofInt p 1
  let z :=
    match (reduced.add one).inv? p with
    | some inverse => (reduced.sub one).mul p inverse
    | none => one
  ((atanhSmall p z).mulInt 2).add ((ln2 p).mulInt shift)

def log? (p : Nat) (a : Interval) : Option Interval :=
  if 0 < a.lo then
    some { lo := (logPoint p a.lo.toNat).lo, hi := (logPoint p a.hi.toNat).hi }
  else none

/-- Replaces the tangent of an angle by the tangent of half the angle. -/
def halveTangent? (p : Nat) (a : Interval) : Option Interval := do
  let hypotenuse ← root? p 2 ((ofInt p 1).add (a.mul p a))
  let inverse ← inv? p ((ofInt p 1).add hypotenuse)
  return a.mul p inverse

/-- The arc tangent of numbers up to one in size. -/
def atanUnit? (p : Nat) (a : Interval) : Option Interval := do
  let half ← halveTangent? p a
  let quarter ← halveTangent? p half
  return (atanSmall p quarter).mulInt 4

def atan? (p : Nat) (a : Interval) : Option Interval := do
  let one := unit p
  if -one ≤ a.lo ∧ a.hi ≤ one then
    atanUnit? p a
  else
    let inverse ← inv? p a
    let complement ← atanUnit? p inverse
    let quarterTurn := (pi p).divNat 2
    if 0 < a.lo then return quarterTurn.sub complement
    else return quarterTurn.neg.sub complement

/-- The series of the sine (`offset` one) and of the cosine (`offset` zero)
without the leading power: `1 - r²/((k+1)(k+2)) (1 - …)`, where `square` is the
negated square of `r`. -/
def circularSeries (p : Nat) (square : Interval) : Nat → Nat → Interval
  | 0, _ => ofInt p 1
  | terms + 1, offset =>
    (ofInt p 1).add
      ((square.mul p (circularSeries p square terms (offset + 2))).divNat
        ((offset + 1) * (offset + 2)))

/-- Sine and cosine of angles up to one in size. -/
def sinCosSmall (p : Nat) (r : Interval) : Interval × Interval :=
  let square := (r.mul p r).neg
  let terms := p / 6 + 12
  (((circularSeries p square terms 1).mul p r).widen 1,
   (circularSeries p square terms 0).widen 1)

/-- Sine and cosine, by reduction to the nearest quarter turn. -/
def sinCos (p : Nat) (a : Interval) : Interval × Interval :=
  let quarterTurn := (pi p).divNat 2
  let turns := floorDiv (a.lo + a.hi + quarterTurn.lo) (2 * quarterTurn.lo)
  let (s, c) := sinCosSmall p (a.sub (quarterTurn.mulInt turns))
  match turns.emod 4 with
  | 0 => (s, c)
  | 1 => (c, s.neg)
  | 2 => (s.neg, c.neg)
  | _ => (c.neg, s)

def tan? (p : Nat) (a : Interval) : Option Interval := do
  let (s, c) := sinCos p a
  let inverse ← inv? p c
  return s.mul p inverse

def asin? (p : Nat) (a : Interval) : Option Interval := do
  let cosine ← root? p 2 ((ofInt p 1).sub (a.mul p a))
  let inverse ← inv? p cosine
  atan? p (a.mul p inverse)

def acos? (p : Nat) (a : Interval) : Option Interval := do
  return ((pi p).divNat 2).sub (← asin? p a)

def sinh? (p : Nat) (a : Interval) : Option Interval := do
  return ((← exp? p a).sub (← exp? p a.neg)).divNat 2

def cosh? (p : Nat) (a : Interval) : Option Interval := do
  return ((← exp? p a).add (← exp? p a.neg)).divNat 2

def tanh? (p : Nat) (a : Interval) : Option Interval := do
  return (← sinh? p a).mul p (← inv? p (← cosh? p a))

/-- Whether all numbers of the interval are positive, or all negative. -/
def sign? (a : Interval) : Option Bool :=
  if 0 < a.lo then some true
  else if a.hi < 0 then some false
  else none

end Interval
end FormulaLine

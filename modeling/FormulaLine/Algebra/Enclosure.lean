import FormulaLine.Algebra.Term
import FormulaLine.Number.Interval

namespace FormulaLine
namespace Term

/-!
Values of constant terms.  A term that denotes a real number is enclosed in an
interval; a term that is not seen to be real has no enclosure.  Questions about
the value are answered by enclosing it with more and more bits, and stay open
when the value is too close to a border to be told apart from it.
-/

/-- Largest exponent of a power that is enclosed. -/
def maxEnclosedExponent : Nat := 1 <<< 16

namespace Enclosure

/-- Powers with a rational exponent. -/
def ratPower? (p : Nat) (base : Interval) (exponent : Rat) : Option Interval :=
  if maxEnclosedExponent < exponent.num.natAbs ∨ maxEnclosedExponent < exponent.den then none
  else do
    let power := base.powNat p exponent.num.natAbs
    let power ← if exponent.num < 0 then power.inv? p else some power
    if exponent.den = 1 then some power
    else if 0 ≤ base.lo then power.root? p exponent.den
    else none

/-- Powers of a positive base. -/
def power? (p : Nat) (base exponent : Interval) : Option Interval := do
  Interval.exp? p (exponent.mul p (← base.log? p))

/-- The integer that all numbers of an interval have as their floor. -/
def floor? (p : Nat) (a : Interval) : Option Int :=
  let low := Interval.floorDiv a.lo (Interval.unit p)
  if low = Interval.floorDiv a.hi (Interval.unit p) then some low else none

/-- The sizes of the numbers of an interval. -/
def abs (a : Interval) : Interval :=
  if 0 ≤ a.lo then a
  else if a.hi ≤ 0 then a.neg
  else { lo := 0, hi := max (-a.lo) a.hi }

def image? (p : Nat) (f : Elementary) (a : Interval) : Option Interval :=
  match f with
  | .abs => some (abs a)
  | .sign => a.sign?.map fun positive => Interval.ofInt p (if positive then 1 else -1)
  | .step => a.sign?.map fun positive => Interval.ofInt p (if positive then 1 else -1)
  | .floor => (floor? p a).map (Interval.ofInt p)
  | .ceiling => (floor? p a.neg).map fun n => Interval.ofInt p (-n)
  | .sin => some (Interval.sinCos p a).1
  | .cos => some (Interval.sinCos p a).2
  | .tan => a.tan? p
  | .asin => a.asin? p
  | .acos => a.acos? p
  | .atan => a.atan? p
  | .sinh => a.sinh? p
  | .cosh => a.cosh? p
  | .tanh => a.tanh? p
  | .log => a.log? p

end Enclosure

mutual

/-- An enclosure at `p` bits of the real number that the term denotes. -/
def enclose? (p : Nat) : Term → Option Interval
  | .scalar s => s.value?.map (Interval.ofRat p)
  | .constant .pi => some (Interval.pi p)
  | .constant .e => Interval.exp? p (Interval.ofInt p 1)
  | .sum terms => encloseSum? p terms
  | .product factors => encloseProduct? p factors
  | .power base exponent =>
    match exponent.rational? with
    | some q => do Enclosure.ratPower? p (← enclose? p base) q
    | none => do Enclosure.power? p (← enclose? p base) (← enclose? p exponent)
  | .apply f argument => do Enclosure.image? p f (← enclose? p argument)
  | _ => none

def encloseSum? (p : Nat) : List Term → Option Interval
  | [] => some (Interval.ofInt p 0)
  | a :: rest => do return (← enclose? p a).add (← encloseSum? p rest)

def encloseProduct? (p : Nat) : List Term → Option Interval
  | [] => some (Interval.ofInt p 1)
  | a :: rest => do return (← enclose? p a).mul p (← encloseProduct? p rest)

end

/-- The counts of bits that are tried in turn. -/
def enclosureBits : List Nat := [64, 128, 256, 512, 1024, 2048]

/-- The first answer that an enclosure of the term gives. -/
def ask? {α : Type} (question : Nat → Interval → Option α) (a : Term) : Option α :=
  enclosureBits.findSome? fun p => (a.enclose? p).bind (question p)

/-- Whether the constant is positive (`true`) or negative (`false`). -/
def constantSign? (a : Term) : Option Bool :=
  if a.isConstant then a.ask? fun _ interval => interval.sign? else none

/-- The greatest integer that is not above the constant. -/
def constantFloor? (a : Term) : Option Int :=
  if a.isConstant then a.ask? Enclosure.floor? else none

/-- The constant rounded to a precision. -/
def constantRounded? (precision : Nat) (a : Term) : Option Rat :=
  if a.isConstant then
    a.ask? fun p interval =>
      let low := Binary.roundTo precision (mkRat interval.lo (1 <<< p))
      if low = Binary.roundTo precision (mkRat interval.hi (1 <<< p)) ∧ low ≠ 0 then some low
      else none
  else none

end Term
end FormulaLine

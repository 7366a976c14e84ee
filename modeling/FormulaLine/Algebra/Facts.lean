import FormulaLine.Algebra.Enclosure

namespace FormulaLine

/-!
What can be told of the value of a term, whatever its symbols stand for.  Every
fact has three answers: yes, no, and not known.  Signs belong to real numbers, of
which the signed infinities are two; a number that is not real has no sign.
-/

structure Facts where
  finite : Option Bool := none
  real : Option Bool := none
  imaginary : Option Bool := none
  integer : Option Bool := none
  zero : Option Bool := none
  positive : Option Bool := none
  negative : Option Bool := none

namespace Facts

def isReal (f : Facts) : Bool := f.real == some true
def isNotReal (f : Facts) : Bool := f.real == some false
def isFinite (f : Facts) : Bool := f.finite == some true
def isInfinite (f : Facts) : Bool := f.finite == some false
def isImaginary (f : Facts) : Bool := f.imaginary == some true
def isInteger (f : Facts) : Bool := f.integer == some true
def isZero (f : Facts) : Bool := f.zero == some true
def isNonzero (f : Facts) : Bool := f.zero == some false
def isPositive (f : Facts) : Bool := f.positive == some true
def isNegative (f : Facts) : Bool := f.negative == some true
def isNonnegative (f : Facts) : Bool := f.isReal && f.negative == some false
def isNonpositive (f : Facts) : Bool := f.isReal && f.positive == some false

/-- The facts of a finite real number of a known sign. -/
def ofSign (sign : Ordering) : Facts where
  finite := some true
  real := some true
  imaginary := some false
  zero := some (sign == .eq)
  positive := some (sign == .gt)
  negative := some (sign == .lt)

/-- The facts of the opposite number. -/
def opposite (f : Facts) : Facts :=
  { f with positive := f.negative, negative := f.positive }

def ofScalar (s : Scalar) : Facts :=
  match s with
  | .exact q =>
    { ofSign (if q < 0 then .lt else if q = 0 then .eq else .gt) with
      integer := some (q.den == 1) }
  | .binary b => ofSign (if b.value < 0 then .lt else if b.value = 0 then .eq else .gt)
  | .infinity negative =>
    { finite := some false, real := some true, imaginary := some false, zero := some false,
      positive := some !negative, negative := some negative, integer := some false }
  | .undefined => {}

def ofConstant : Constant → Facts
  | .pi => { ofSign .gt with integer := some false }
  | .e => { ofSign .gt with integer := some false }
  | .i =>
    { finite := some true, real := some false, imaginary := some true, integer := some false,
      zero := some false, positive := some false, negative := some false }

/-- The answer for a sum of which every part, or every part but one, satisfies a
property that sums of satisfying parts have. -/
def allButOne (answers : List (Option Bool)) : Option Bool :=
  if answers.contains none then none
  else
    match answers.countP (· == some false) with
    | 0 => some true
    | 1 => some false
    | _ => none

def ofSum (parts : List Facts) : Facts :=
  let nonnegative := parts.all isNonnegative
  let nonpositive := parts.all isNonpositive
  let real := allButOne (parts.map Facts.real)
  let positive := nonnegative && parts.any isPositive
  let negative := nonpositive && parts.any isNegative
  { finite := allButOne (parts.map Facts.finite)
    real := real
    imaginary :=
      if parts.all isImaginary then some true
      else if real == some true then some false else none
    integer := allButOne (parts.map Facts.integer)
    zero := if positive || negative || real == some false then some false else none
    positive := if positive then some true else if nonpositive then some false else none
    negative := if negative then some true else if nonnegative then some false else none }

def ofProduct (parts : List Facts) : Facts :=
  let nonzero := parts.all isNonzero
  let finite := parts.all isFinite
  let phases := parts.all fun f => f.isReal || f.isImaginary
  let real := phases && parts.countP isImaginary % 2 == 0
  let imaginary := phases && nonzero && !real
  let signs := parts.all fun f => f.isPositive || f.isNegative
  let negatives := parts.countP isNegative
  let nonnegative := parts.all isNonnegative
  { finite :=
      if finite then some true
      else if nonzero && parts.any isInfinite then some false else none
    real :=
      if real then some true
      else if imaginary then some false
      else if nonzero && parts.countP isNotReal == 1 && parts.countP isReal + 1 == parts.length then
        some false
      else none
    imaginary := if imaginary then some true else if real then some false else none
    integer := if parts.all isInteger then some true else none
    zero :=
      if nonzero then some false
      else if finite && parts.any isZero then some true else none
    positive :=
      if signs then some (negatives % 2 == 0)
      else if nonnegative && nonzero then some true else none
    negative :=
      if signs then some (negatives % 2 == 1)
      else if nonnegative then some false else none }

/-- Powers with an integer exponent. -/
def ofIntegerPower (base : Facts) (n : Int) : Facts :=
  let even := n % 2 == 0
  let real := base.isReal || (base.isImaginary && even)
  let evenReal := even && base.isReal
  { finite :=
      if 0 < n then base.finite
      else if base.isNonzero then some true
      else if base.isZero then some false else none
    real := if real then some true else if base.isImaginary then some false else none
    imaginary := if real then some false else if base.isImaginary then some true else none
    integer := if 0 ≤ n && base.isInteger then some true else none
    zero :=
      if 0 < n then base.zero
      else if base.isFinite then some false else none
    positive :=
      if base.isPositive || (evenReal && base.isNonzero) then some true
      else if base.isNegative && !even then some false else none
    negative :=
      if base.isNonnegative || evenReal then some false
      else if base.isNegative && !even then some true else none }

/-- Powers with a rational exponent that is no integer. -/
def ofFractionalPower (base : Facts) (q : Rat) : Facts :=
  if base.isPositive then
    { ofSign .gt with finite := base.finite }
  else if base.isNonnegative then
    { finite := if 0 < q then base.finite else none, real := some true, imaginary := some false,
      zero := base.zero, negative := some false }
  else if base.isNegative then
    { finite := base.finite, real := some false, imaginary := some (q.den == 2),
      integer := some false, zero := some false, positive := some false, negative := some false }
  else
    { zero := if base.isNonzero && base.isFinite then some false else none
      finite := if 0 < q then base.finite else none }

def ofPower (base : Facts) (exponent : Facts) (value : Option Rat) : Facts :=
  match value with
  | some q =>
    if q.den = 1 then ofIntegerPower base q.num else ofFractionalPower base q
  | none =>
    if base.isPositive && exponent.isReal then
      { ofSign .gt with
        finite := if base.isFinite && exponent.isFinite then some true else none
        zero := if exponent.isFinite then some false else none }
    else
      { zero := if base.isNonzero && base.isFinite && exponent.isFinite then some false else none
        finite := if base.isNonzero && base.isFinite && exponent.isFinite then some true else none }

/-- The facts of a real function value of which nothing else is known. -/
def ofRealFunction (argument : Facts) : Facts :=
  if argument.isReal then
    { real := some true, imaginary := some false
      finite := if argument.isFinite then some true else none }
  else {}

/-- The facts of an increasing function that keeps the sign. -/
def ofOddFunction (argument : Facts) : Facts :=
  { ofRealFunction argument with
    zero := argument.zero
    positive := if argument.isReal then argument.positive else none
    negative := if argument.isReal then argument.negative else none }

def ofApply (f : Elementary) (a : Facts) : Facts :=
  match f with
  | .abs =>
    { finite := a.finite, real := some true, imaginary := some false
      integer := if a.isReal then a.integer else none
      zero := a.zero, positive := a.zero.map (!·), negative := some false }
  | .sign =>
    { ofOddFunction a with
      finite := some true
      imaginary := a.imaginary
      integer := if a.isReal then some true else none }
  | .step =>
    { finite := some true, real := some true, imaginary := some false, integer := some true,
      zero := some false }
  | .floor =>
    { ofRealFunction a with
      finite := a.finite
      integer := if a.isReal then some true else none
      negative := if a.isNegative then some true else if a.isNonnegative then some false else none
      positive := if a.isNonpositive then some false else none }
  | .ceiling =>
    { ofRealFunction a with
      finite := a.finite
      integer := if a.isReal then some true else none
      positive := if a.isPositive then some true else if a.isNonpositive then some false else none
      negative := if a.isNonnegative then some false else none }
  | .sin | .cos | .tan => ofRealFunction a
  | .asin | .acos => {}
  | .atan | .sinh | .tanh => ofOddFunction a
  | .cosh => if a.isReal then { ofSign .gt with finite := a.finite } else {}
  | .log =>
    if a.isPositive then { ofRealFunction a with integer := none }
    else if a.isNegative then
      { real := some false, finite := a.finite, zero := some false, positive := some false,
        negative := some false, integer := some false }
    else {}

/-- Adds the sign of a constant whose value can be enclosed away from zero. -/
def refine (a : Term) (f : Facts) : Facts :=
  if f.positive.isSome && f.negative.isSome || f.isNotReal || f.isZero then f
  else
    match a.constantSign? with
    | some positive =>
      { f with
        finite := some true
        real := some true
        imaginary := some false
        zero := some false
        positive := some positive
        negative := some !positive }
    | none => f

end Facts

namespace Term

mutual

def facts : Term → Facts
  | .scalar s => Facts.ofScalar s
  | .complexInfinity =>
    { finite := some false, real := some false, zero := some false, positive := some false,
      negative := some false, integer := some false }
  | .constant c => Facts.ofConstant c
  | .symbol _ => {}
  | .sum terms => Facts.refine (.sum terms) (Facts.ofSum (factsOf terms))
  | .product factors => Facts.refine (.product factors) (Facts.ofProduct (factsOf factors))
  | .power base exponent =>
    Facts.refine (.power base exponent) (Facts.ofPower (facts base) (facts exponent) exponent.rational?)
  | .apply f argument => Facts.refine (.apply f argument) (Facts.ofApply f (facts argument))
  | .call _ _ => {}
  | .foreign _ => {}

def factsOf : List Term → List Facts
  | [] => []
  | a :: rest => facts a :: factsOf rest

end

end Term
end FormulaLine

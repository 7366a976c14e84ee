import FormulaLine.Algebra.Angle
import FormulaLine.Number.Rounding
import FormulaLine.Vocabulary

namespace FormulaLine
namespace Term

/-!
The functions of the vocabulary on terms.

A function gives the exact value where one is known, a rounded value for a binary
number, and otherwise the function applied to its argument, brought to a form in
which arguments that differ only in sign or by whole turns agree.
-/

/-- A function of a binary number, rounded to its precision. -/
def roundedValue (f : Elementary) (b : Binary) : Term :=
  let enclose (p : Nat) : Option Interval := Enclosure.image? p f (Interval.ofRat p b.value)
  match Binary.roundEnclosed? b.precision enclose with
  | some q => .scalar (.ofBinary b.precision q)
  | none => .apply f (.scalar (.binary b))

/-- The factor that a term is the imaginary unit times of. -/
def overImaginary? (a : Term) : Option Term :=
  match a with
  | .constant .i => some one
  | .product factors =>
    if factors.any fun b => b matches .constant .i then
      some (mulAll (factors.filter fun b => !(b matches .constant .i)))
    else none
  | _ => none

/-- Real and imaginary part of a constant that is a sum of real constants and
imaginary multiples of real constants. -/
def realParts? (a : Term) : Option (Term × Term) :=
  a.summands.foldlM (fun (re, im) b =>
    if b.facts.isReal then some (add re b, im)
    else
      match overImaginary? b with
      | some c => if c.facts.isReal then some (re, add im c) else none
      | none => none) (zero, zero)

/-! ### Size and sign -/

/-- The size of a term that is no product. -/
def absFactor (a : Term) : Term :=
  match a with
  | .scalar s => .scalar s.abs
  | .complexInfinity => infinity
  | .constant .i => one
  | a =>
    let facts := a.facts
    if facts.isZero then zero
    else if facts.isNonnegative then a
    else if facts.isNonpositive then neg a
    else
      match a with
      | .power (.constant .e) exponent =>
        if exponent.facts.isImaginary then one else .apply .abs a
      | .power base exponent =>
        let baseFacts := base.facts
        if baseFacts.isReal && exponent.facts.isReal then
          if exponent.integer?.isSome && !baseFacts.isNegative then
            pow (.apply .abs base) exponent
          else if baseFacts.isNegative then pow (neg base) exponent
          else .apply .abs a
        else
          match exponent.integer? with
          | some n =>
            if n < 0 && !a.isConstant then inverse (.apply .abs (pow base (ofInt (-n))))
            else .apply .abs a
          | none => .apply .abs a
      | .sum _ =>
        match complexParts? a with
        | some (re, im) => sqrt (ofRat (re * re + im * im))
        | none => .apply .abs (if looksNegative a then neg a else a)
      | a => .apply .abs a

/-- The size of a term.  The known sizes of factors are taken out. -/
def abs (a : Term) : Term :=
  match a with
  | .product factors =>
    let sizes := factors.map fun b => (b, absFactor b)
    let known := sizes.filterMap fun (_, size) =>
      match size with
      | .apply .abs _ => none
      | size => some size
    let unknown := sizes.filterMap fun (b, size) =>
      match size with
      | .apply .abs _ => some b
      | _ => none
    match unknown with
    | [] => mulAll known
    | [b] => mulAll (absFactor b :: known)
    | many => mulAll (.apply .abs (mulAll many) :: known)
  | a => absFactor a

/-- The sign of a term that is no product. -/
def signFactor (a : Term) : Term :=
  match a with
  | .scalar .undefined => undefined
  | .apply .sign b => .apply .sign b
  | .constant .i => i
  | a =>
    let facts := a.facts
    if facts.isZero then zero
    else if facts.isPositive then one
    else if facts.isNegative then minusOne
    else .apply .sign a

/-- The sign of a term: itself divided by its size. -/
def sign (a : Term) : Term :=
  match a with
  | .product factors =>
    let signs := factors.map fun b => (b, signFactor b)
    let unknown := signs.filterMap fun (b, s) =>
      match s with
      | .apply .sign _ => some b
      | _ => none
    let known := signs.filterMap fun (_, s) =>
      match s with
      | .apply .sign _ => none
      | s => some s
    match unknown with
    | [] => mulAll known
    | many => mulAll (signFactor (mulAll many) :: known)
  | a => signFactor a

/-! ### Rounding -/

/-- Rounding to an integer in one direction. -/
structure Direction where
  ofRat : Rat → Int
  function : Elementary
  ofConstant? : Term → Option Int

def downward : Direction where
  ofRat := Rat.floor
  function := .floor
  ofConstant? := constantFloor?

def upward : Direction where
  ofRat := Rat.ceil
  function := .ceiling
  ofConstant? a := (constantFloor? (neg a)).map fun n => -n

/-- Whether a summand is an integer, and so is not touched by rounding. -/
def isIntegral (a : Term) : Bool :=
  match a with
  | .scalar (.binary b) => b.value.den == 1
  | a => a.facts.isInteger

/-- Rounds a constant whose parts have known integer parts. -/
def roundConstant? (direction : Direction) (a : Term) : Option Term :=
  match direction.ofConstant? a with
  | some n => some (ofInt n)
  | none =>
    match realParts? a with
    | some (re, im) => do
      let re ← direction.ofConstant? re
      let im ← direction.ofConstant? im
      return add (ofInt re) (scale (.ofInt im) i)
    | none => none

/-- Rounds a term to an integer.  Integer summands are taken out. -/
def roundToward (direction : Direction) (a : Term) : Term :=
  match a with
  | .scalar (.exact q) => ofInt (direction.ofRat q)
  | .scalar (.binary b) => ofInt (direction.ofRat b.value)
  | .scalar s => .scalar s
  | .complexInfinity => .complexInfinity
  | a =>
    if isIntegral a then a
    else
      let (whole, rest) := a.summands.partition isIntegral
      let rest := addAll rest
      let rounded :=
        if rest.isConstant then (roundConstant? direction rest).getD (.apply direction.function rest)
        else
          match rest with
          | .apply .floor b => .apply .floor b
          | .apply .ceiling b => .apply .ceiling b
          | rest => .apply direction.function rest
      addAll (rounded :: whole)

def floor (a : Term) : Term := roundToward downward a

def ceiling (a : Term) : Term := roundToward upward a

/-- Rounds toward zero. -/
def trunc (a : Term) : Term :=
  match a with
  | .scalar (.exact q) => ofInt (Rounding.trunc q)
  | a => mul (sign a) (floor (abs a))

/-- Rounds to a nearest integer, a half away from zero. -/
def round (a : Term) : Term :=
  match a with
  | .scalar (.exact q) => ofInt (Rounding.round q)
  | a => mul (sign a) (floor (add (abs a) half))

/-- What truncation takes away. -/
def fract (a : Term) : Term :=
  match a with
  | .scalar (.exact q) => ofRat (Rounding.fract q)
  | a => sub a (trunc a)

/-- A term of which no sign can be asked. -/
inductive OrderFault where
  | notReal

/-- One for terms that are not negative, minus one for negative terms. -/
def signum (a : Term) : Except OrderFault Term :=
  match a with
  | .scalar (.exact q) => .ok (ofInt (Rounding.signum q))
  | .scalar .undefined => .error .notReal
  | a =>
    let facts := a.facts
    if facts.isNotReal then .error .notReal
    else if facts.isNonnegative || facts.isPositive then .ok one
    else if facts.isNegative then .ok minusOne
    else
      let (s, rest) := splitCoefficient a
      .ok (.apply .step (if s.isPositive then rest else if s.isNegative then neg rest else a))

/-! ### Circular and hyperbolic functions -/

/-- Applies an odd function of a term that is not written with a minus sign. -/
def oddly (f : Term → Term) (a : Term) : Term :=
  if looksNegative a then neg (f (neg a)) else f a

/-- Applies an even function. -/
def evenly (f : Term → Term) (a : Term) : Term :=
  if looksNegative a then f (neg a) else f a

/-- The square root of one minus a square. -/
def complement (a : Term) : Term :=
  sqrt (sub one (pow a two))

/-- The square root of one plus a square. -/
def hypotenuse (a : Term) : Term :=
  sqrt (add one (pow a two))

def sinReduced (a : Term) : Term :=
  match Angle.ofTerm? a, overImaginary? a with
  | some q, _ => Angle.sin q
  | none, some b => mul i (.apply .sinh b)
  | none, none =>
    match a with
    | .apply .asin b => b
    | .apply .acos b => complement b
    | .apply .atan b => div b (hypotenuse b)
    | a => .apply .sin a

def cosReduced (a : Term) : Term :=
  match Angle.ofTerm? a, overImaginary? a with
  | some q, _ => Angle.cos q
  | none, some b => .apply .cosh b
  | none, none =>
    match a with
    | .apply .acos b => b
    | .apply .asin b => complement b
    | .apply .atan b => inverse (hypotenuse b)
    | a => .apply .cos a

def tanReduced (a : Term) : Term :=
  match Angle.ofTerm? a, overImaginary? a with
  | some q, _ => Angle.tan q
  | none, some b => mul i (.apply .tanh b)
  | none, none =>
    match a with
    | .apply .atan b => b
    | .apply .asin b => div b (complement b)
    | .apply .acos b => div (complement b) b
    | a => .apply .tan a

/-- The value of a circular or hyperbolic function at a number. -/
def atNumber (f : Elementary) (atZero : Term) (s : Scalar) : Term :=
  if s.isZero then atZero
  else
    match s with
    | .binary b => roundedValue f b
    | .undefined => undefined
    | s => .apply f (.scalar s)

def sin (a : Term) : Term :=
  match a with
  | .scalar (.exact q) =>
    if q < 0 then neg (.apply .sin (ofRat (-q))) else atNumber .sin zero (.exact q)
  | .scalar s => atNumber .sin zero s
  | .complexInfinity => undefined
  | a =>
    oddly (fun a =>
      let (turn, rest) := Angle.peel a
      if turn = 0 || same rest zero then sinReduced a
      else
        add (mul (Angle.sin turn) (evenly cosReduced rest))
          (mul (Angle.cos turn) (oddly sinReduced rest))) a

def cos (a : Term) : Term :=
  match a with
  | .scalar (.exact q) =>
    atNumber .cos one (.exact (if q < 0 then -q else q))
  | .scalar s => atNumber .cos one s
  | .complexInfinity => undefined
  | a =>
    evenly (fun a =>
      let (turn, rest) := Angle.peel a
      if turn = 0 || same rest zero then cosReduced a
      else
        sub (mul (Angle.cos turn) (evenly cosReduced rest))
          (mul (Angle.sin turn) (oddly sinReduced rest))) a

def tan (a : Term) : Term :=
  match a with
  | .scalar (.exact q) =>
    if q < 0 then neg (.apply .tan (ofRat (-q))) else atNumber .tan zero (.exact q)
  | .scalar s => atNumber .tan zero s
  | .complexInfinity => undefined
  | a =>
    oddly (fun a =>
      let (turn, rest) := Angle.peel a
      if turn = 0 || same rest zero then tanReduced a
      else if turn.den = 1 then oddly tanReduced rest
      else neg (inverse (oddly tanReduced rest))) a

def sinh (a : Term) : Term :=
  match a with
  | .scalar (.infinity negative) => .scalar (.infinity negative)
  | .scalar (.exact q) =>
    if q < 0 then neg (.apply .sinh (ofRat (-q))) else atNumber .sinh zero (.exact q)
  | .scalar s => atNumber .sinh zero s
  | .complexInfinity => undefined
  | a =>
    oddly (fun a =>
      match overImaginary? a with
      | some b => mul i (sin b)
      | none => .apply .sinh a) a

def cosh (a : Term) : Term :=
  match a with
  | .scalar (.infinity _) => infinity
  | .scalar (.exact q) => atNumber .cosh one (.exact (if q < 0 then -q else q))
  | .scalar s => atNumber .cosh one s
  | .complexInfinity => undefined
  | a =>
    evenly (fun a =>
      match overImaginary? a with
      | some b => cos b
      | none => .apply .cosh a) a

def tanh (a : Term) : Term :=
  match a with
  | .scalar (.infinity negative) => if negative then minusOne else one
  | .scalar (.exact q) =>
    if q < 0 then neg (.apply .tanh (ofRat (-q))) else atNumber .tanh zero (.exact q)
  | .scalar s => atNumber .tanh zero s
  | .complexInfinity => undefined
  | a =>
    oddly (fun a =>
      match overImaginary? a with
      | some b => mul i (tan b)
      | none => .apply .tanh a) a

/-! ### Inverse circular functions -/

/-- Whether a real constant is greater than another. -/
def exceeds (a b : Term) : Bool :=
  (sub a b).constantSign? == some true

/-- What is left of a real constant after whole periods are taken away. -/
def reduceBy? (period a : Term) : Option Term :=
  if a.isConstant && a.facts.isReal then
    match a, constantFloor? (div a period) with
    | .scalar (.exact 0), _ => some zero
    | a, some n => some (sub a (scale (.ofInt n) period))
    | _, none => none
  else none

/-- The angle between right angles that has the sine of the given angle. -/
def foldSine? (angle : Term) : Option Term := do
  let angle ← reduceBy? (Angle.multiple 2) angle
  let angle := if exceeds angle pi then sub pi angle else angle
  let angle := if exceeds angle (Angle.multiple (mkRat 1 2)) then sub pi angle else angle
  return if exceeds (Angle.multiple (mkRat (-1) 2)) angle then sub (neg pi) angle else angle

/-- The angle from zero to a half turn that has the cosine of the given angle. -/
def foldCosine? (angle : Term) : Option Term := do
  let angle ← reduceBy? (Angle.multiple 2) angle
  return if exceeds angle pi then sub (Angle.multiple 2) angle else angle

/-- The angle between right angles that has the tangent of the given angle. -/
def foldTangent? (angle : Term) : Option Term := do
  let angle ← reduceBy? pi angle
  return if exceeds angle (Angle.multiple (mkRat 1 2)) then sub angle pi else angle

/-- The angle of a sine, if the table has it or its opposite. -/
def tableAngle? (a : Term) : Option Rat :=
  match Angle.find? a Angle.cosines with
  | some q => some (mkRat 1 2 - q)
  | none => (Angle.find? (neg a) Angle.cosines).map fun q => q - mkRat 1 2

/-- The value of an inverse circular function at a binary number up to one in
size. -/
def roundedInverse (f : Elementary) (b : Binary) : Term :=
  if b.value < -1 ∨ 1 < b.value then .apply f (.scalar (.binary b))
  else if b.value = 1 ∨ b.value = -1 then
    let value :=
      match f with
      | .asin => Angle.multiple (if 0 < b.value then mkRat 1 2 else mkRat (-1) 2)
      | _ => Angle.multiple (if 0 < b.value then 0 else 1)
    match value with
    | .scalar s => .scalar s
    | value =>
      match constantRounded? b.precision value with
      | some q => .scalar (.ofBinary b.precision q)
      | none => .apply f (.scalar (.binary b))
  else roundedValue f b

def asin (a : Term) : Term :=
  match a with
  | .scalar (.binary b) => if b.value = 0 then zero else roundedInverse .asin b
  | .scalar .undefined => undefined
  | .complexInfinity => .complexInfinity
  | a =>
    match tableAngle? a with
    | some q => Angle.multiple q
    | none =>
      oddly (fun a =>
        match a with
        | .apply .sin angle => (foldSine? angle).getD (.apply .asin a)
        | .apply .cos angle =>
          match foldCosine? angle with
          | some folded => sub (Angle.multiple (mkRat 1 2)) folded
          | none => .apply .asin a
        | a => .apply .asin a) a

def acos (a : Term) : Term :=
  match a with
  | .scalar (.binary b) =>
    if b.value = 0 then Angle.multiple (mkRat 1 2) else roundedInverse .acos b
  | .scalar .undefined => undefined
  | .complexInfinity => .complexInfinity
  | a =>
    match tableAngle? a with
    | some q => Angle.multiple (mkRat 1 2 - q)
    | none =>
      match a with
      | .apply .cos angle => (foldCosine? angle).getD (.apply .acos a)
      | .apply .sin angle =>
        match foldSine? angle with
        | some folded => sub (Angle.multiple (mkRat 1 2)) folded
        | none => .apply .acos a
      | a => .apply .acos a

def atan (a : Term) : Term :=
  match a with
  | .scalar (.binary b) => if b.value = 0 then zero else roundedValue .atan b
  | .scalar (.infinity negative) => Angle.multiple (if negative then mkRat (-1) 2 else mkRat 1 2)
  | .scalar .undefined => undefined
  | a =>
    match Angle.find? a Angle.tangents, Angle.find? (neg a) Angle.tangents with
    | some q, _ => Angle.multiple q
    | none, some q => Angle.multiple (-q)
    | none, none =>
      oddly (fun a =>
        match a with
        | .apply .tan angle => (foldTangent? angle).getD (.apply .atan a)
        | a => .apply .atan a) a

/-! ### Logarithms -/

/-- `π i`, the logarithm of minus one. -/
def halfTurn : Term := mul pi i

/-- The logarithm of a term that is not negative. -/
def logPositive (a : Term) : Term :=
  match a with
  | .constant .e => one
  | .scalar (.exact q) =>
    if q.num = 1 ∧ q.den ≠ 1 then neg (.apply .log (ofRat q.den)) else .apply .log a
  | .scalar (.binary b) =>
    match Binary.log? b.precision b.value with
    | some q => .scalar (.ofBinary b.precision q)
    | none => .apply .log a
  | .power (.constant .e) exponent =>
    if exponent.facts.isReal then exponent else .apply .log a
  | a =>
    match a with
    | .constant .i => scale (.exact (mkRat 1 2)) halfTurn
    | .product [.scalar (.exact q), .constant .i] =>
      let size := if q < 0 then -q else q
      add (scale (.exact (if q < 0 then mkRat (-1) 2 else mkRat 1 2)) halfTurn)
        (.apply .log (ofRat size))
    | a => .apply .log a

/-- The natural logarithm. -/
def log (a : Term) : Term :=
  match a with
  | .scalar (.infinity _) => infinity
  | .scalar .undefined => undefined
  | .complexInfinity => .complexInfinity
  | a =>
    if a.rational? == some 1 then zero
    else
      let facts := a.facts
      if facts.isZero then .complexInfinity
      else if facts.isNegative && a.isConstant then add halfTurn (logPositive (neg a))
      else logPositive a

/-- How often a base divides a nonzero rational number. -/
def multiplicity (base : Nat) (q : Rat) : Int :=
  let count (n : Nat) : Int := (Radical.extract base (n.log2 + 1) n).1
  count q.num.natAbs - count q.den

/-- The logarithm to a natural base.  Powers of the base are taken out of exact
numbers. -/
def logBase (base : Nat) (a : Term) : Term :=
  let quotient (a : Term) : Term := div (log a) (log (ofInt base))
  match a with
  | .scalar (.exact q) =>
    if q = 0 then quotient a
    else
      let n := multiplicity base q
      if n = 0 then quotient a
      else add (ofInt n) (quotient (ofRat (q / (base : Rat) ^ n)))
  | a => quotient a

/-! ### The vocabulary -/

/-- Applies a function of the vocabulary. -/
def applyBuiltin (f : Builtin) (a : Term) : Except OrderFault Term :=
  match f with
  | .abs => .ok (abs a)
  | .signum => signum a
  | .sin => .ok (sin a)
  | .cos => .ok (cos a)
  | .tan => .ok (tan a)
  | .asin => .ok (asin a)
  | .acos => .ok (acos a)
  | .atan => .ok (atan a)
  | .sinh => .ok (sinh a)
  | .cosh => .ok (cosh a)
  | .tanh => .ok (tanh a)
  | .floor => .ok (floor a)
  | .round => .ok (round a)
  | .ceil => .ok (ceiling a)
  | .trunc => .ok (trunc a)
  | .fract => .ok (fract a)
  | .exp => .ok (exp a)
  | .sqrt => .ok (sqrt a)
  | .cbrt => .ok (pow a (ofRat (mkRat 1 3)))
  | .ln => .ok (log a)
  | .log2 => .ok (logBase 2 a)
  | .log10 => .ok (logBase 10 a)

end Term
end FormulaLine

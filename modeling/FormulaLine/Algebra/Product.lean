import FormulaLine.Algebra.Sum
import FormulaLine.Number.Radical
import FormulaLine.Number.Root

namespace FormulaLine
namespace Term

/-!
Products and powers of terms.

Factors with equal bases are collected: their exponents are added as far as they
are equal up to a number in front.  Numbers with equal symbolic exponents are
multiplied.  Roots of negative numbers are taken from the
positive number, times a power of minus one, whose exponents are collected as
well; half of minus one is the imaginary unit.  Products and powers call each
other, because collected exponents give new powers and powers of products give
new products.  A fuel bounds the depth of these calls, and a term for which it
does not suffice stays as it is written.
-/

/-- A base, the number in front of its exponent, the rest of the exponent, and
whether several factors have been collected in it. -/
structure PowerEntry where
  base : Term
  number : Scalar
  rest : Term
  collected : Bool

namespace PowerEntry

def exponent (entry : PowerEntry) : Term :=
  scale entry.number entry.rest

/-- A base that is a number and may be multiplied with others of the same exponent:
the exponent is no number, and either the base is positive or the exponent an
integer. -/
def mergeable? (entry : PowerEntry) : Option Scalar :=
  match entry.base with
  | .scalar s =>
    if !same entry.rest one && (s.isPositive || entry.exponent.facts.isInteger) then some s
    else none
  | _ => none

end PowerEntry

/-- What has been multiplied so far. -/
structure ProductParts where
  /-- The product of the numbers. -/
  number : Scalar := .one
  /-- Whether complex infinity is a factor. -/
  infinite : Bool := false
  /-- The exponent of minus one. -/
  phase : Rat := 0
  /-- The other factors. -/
  powers : List PowerEntry := []

/-- The power of minus one with an exponent between zero and one. -/
def phaseFactor (phase : Rat) : List Term :=
  if phase = 0 then []
  else if phase = mkRat 1 2 then [i]
  else [.power minusOne (ofRat phase)]

/-- A power of minus one: its sign, and the exponent that is left. -/
def splitPhase (phase : Rat) : Scalar × Rat :=
  (if phase.floor % 2 = 0 then .one else .minusOne, phase - phase.floor)

/-- Reads a factor as a power, the inverse of a natural number as a power of that
number. -/
def readPower (a : Term) : Term × Scalar × Term :=
  let (base, exponent) := splitPower a
  let (s, rest) := splitCoefficient exponent
  match base.rational? with
  | some q =>
    if q.num = 1 ∧ q.den ≠ 1 then (ofRat q.den, s.neg, rest) else (base, s, rest)
  | none => (base, s, rest)

namespace ProductParts

/-- Adds to the exponent of a base. -/
def addPower (base : Term) (s : Scalar) (rest : Term) : List PowerEntry → List PowerEntry
  | [] => [⟨base, s, rest, false⟩]
  | entry :: entries =>
    if same entry.base base && same entry.rest rest then
      ⟨base, entry.number.add s, rest, true⟩ :: entries
    else entry :: addPower base s rest entries

/-- Multiplies a number into the base of the first entry with the same exponent,
which an entry of that number and exponent stands for if there is none. -/
def mergeNumber (s : Scalar) (exponent : Term) (alone : PowerEntry) :
    List PowerEntry → List PowerEntry
  | [] => [alone]
  | entry :: entries =>
    match entry.mergeable? with
    | some t =>
      if same entry.exponent exponent then
        { entry with base := .scalar (t.mul s), collected := true } :: entries
      else entry :: mergeNumber s exponent alone entries
    | none => entry :: mergeNumber s exponent alone entries

/-- Multiplies the numbers that have equal symbolic exponents. -/
def mergeNumbers : List PowerEntry → List PowerEntry
  | [] => []
  | entry :: entries =>
    match entry.mergeable? with
    | some s => mergeNumber s entry.exponent entry (mergeNumbers entries)
    | none => entry :: mergeNumbers entries

/-- Multiplies by a factor that is no product. -/
def mul (parts : ProductParts) (a : Term) : ProductParts :=
  match a with
  | .scalar s =>
    if parts.infinite then
      if s.isZero || s.isUndefined then { parts with number := .undefined } else parts
    else { parts with number := parts.number.mul s }
  | .complexInfinity =>
    if parts.number.isZero || parts.number.isUndefined then { parts with number := .undefined }
    else { parts with infinite := true, number := .one }
  | .constant .i => { parts with phase := parts.phase + mkRat 1 2 }
  | a =>
    match a with
    | .power (.scalar (.exact (-1))) (.scalar (.exact phase)) =>
      { parts with phase := parts.phase + phase }
    | a =>
      let (base, s, rest) := readPower a
      { parts with powers := addPower base s rest parts.powers }

/-- The factors that an infinite number does not absorb, and its sign after the
others are absorbed. -/
def absorb (negative : Bool) : List Term → Bool × List Term
  | [] => (negative, [])
  | a :: rest =>
    let facts := a.facts
    if facts.isPositive then absorb negative rest
    else if facts.isNegative then absorb (!negative) rest
    else
      let (negative, kept) := absorb negative rest
      (negative, a :: kept)

/-- The product of a number, the power of minus one, and combined factors. -/
def finish (number : Scalar) (infinite : Bool) (phase : Rat) (factors : List Term) : Term :=
  let (sign, phase) := splitPhase phase
  let factors := phaseFactor phase ++ factors
  let number := if sign.isOne then number else number.mul sign
  if number.isUndefined then undefined
  else if infinite then
    match sort (factors.filter fun a => !(a.facts.isNonzero && a.facts.real.isSome)) with
    | [] => .complexInfinity
    | kept => .product (.complexInfinity :: kept)
  else
    match number with
    | .infinity negative =>
      let (negative, kept) := absorb negative factors
      productOf (.infinity negative) (sort kept)
    | number =>
      if number.isZero then
        if factors.any fun a => a.facts.isInfinite then undefined else .scalar number
      else
        match factors with
        | [a] => scale number a
        | factors => productOf number (sort factors)

end ProductParts

/-- Largest count of bits of an exact power. -/
def maxPowerBits : Nat := 1 <<< 25

/-- Whether an exact power is small enough to be computed. -/
def powerFits (base : Rat) (exponent : Rat) : Bool :=
  (Binary.bitLength base.num.natAbs + Binary.bitLength base.den) * exponent.num.natAbs ≤
    maxPowerBits * exponent.den

/-- A power of a rational number other than zero and one. -/
def ratPower (base exponent : Rat) : Term :=
  if !powerFits base exponent then .power (ofRat base) (ofRat exponent)
  else if exponent.den = 1 then ofRat (base ^ exponent.num)
  else
    let size := if base < 0 then -base else base
    let radical := if size = 1 then Radical.one else Radical.ofRat size exponent
    let roots := radical.roots.map fun (n, q) => power (ofRat n) (ofRat q)
    ProductParts.finish (.exact radical.coefficient) false (if base < 0 then exponent else 0) roots

/-- A power of a binary number. -/
def binaryPower (base : Binary) (exponent : Scalar) : Term :=
  let unevaluated := power (.scalar (.binary base)) (.scalar exponent)
  if base.value = 0 then
    if exponent.isPositive then .scalar (.binary base)
    else if exponent.isNegative then .complexInfinity
    else unevaluated
  else
    let rounded (precision : Nat) (size exponent : Rat) : Option Scalar :=
      (Binary.pow? precision size exponent).map (Scalar.ofBinary precision)
    match exponent with
    | .exact q =>
      if q.den = 1 then
        if Binary.maxExponent < q.num.natAbs then unevaluated
        else .scalar (.ofBinary base.precision (Binary.powInt base.precision base.value q.num))
      else if 0 < base.value then
        match rounded base.precision base.value (Binary.roundTo base.precision q) with
        | some s => .scalar s
        | none => unevaluated
      else if q.num = 1 ∧ q.den % 2 = 1 then
        match rounded base.precision (-base.value) (Binary.roundTo base.precision q) with
        | some s => ProductParts.finish s false q []
        | none => unevaluated
      else unevaluated
    | .binary b =>
      let precision := max base.precision b.precision
      if b.value.den = 1 then
        if Binary.maxExponent < b.value.num.natAbs then unevaluated
        else .scalar (.ofBinary precision (Binary.powInt precision base.value b.value.num))
      else if 0 < base.value then
        match rounded precision base.value b.value with
        | some s => .scalar s
        | none => unevaluated
      else unevaluated
    | _ => unevaluated

/-- A power of a rational number with an infinite exponent. -/
def infinitePower (base : Rat) (negative : Bool) : Term :=
  if negative then
    if base > 1 then zero
    else if 0 < base then infinity
    else if -1 ≤ base then .complexInfinity
    else zero
  else if base > 1 then infinity
  else if -1 < base then zero
  else .complexInfinity

/-- A power of zero; the exponent is not the exact zero. -/
def zeroPower (exponent : Term) : Term :=
  let facts := exponent.facts
  if facts.isPositive then zero
  else if facts.isNegative then .complexInfinity
  else if facts.isNotReal then undefined
  else if facts.isZero then one
  else
    let (s, rest) := splitCoefficient exponent
    if s.isNegative then .power .complexInfinity rest
    else .power zero rest

/-- A power of a number. -/
def scalarPower (base : Scalar) (exponent : Term) : Term :=
  match base, exponent with
  | .exact q, .scalar (.exact r) =>
    if q = 0 then zeroPower exponent else ratPower q r
  | .exact q, .scalar (.binary b) =>
    if q = 0 then zeroPower exponent
    else binaryPower (Binary.ofRat b.precision q) (.binary b)
  | .exact q, .scalar (.infinity negative) => infinitePower q negative
  | .exact q, exponent =>
    if q = 0 then zeroPower exponent else .power (.scalar base) exponent
  | .binary b, .scalar s => binaryPower b s
  | .infinity negative, exponent =>
    let facts := exponent.facts
    if facts.isPositive && (!negative || facts.isInteger) then
      match exponent.integer? with
      | some n => .scalar (.infinity (negative && n % 2 == 1))
      | none => .scalar (.infinity false)
    else if facts.isNegative then zero
    else .power (.scalar base) exponent
  | base, exponent => .power (.scalar base) exponent

/-- A power of complex infinity; the exponent is not zero. -/
def complexInfinityPower (exponent : Term) : Term :=
  match exponent with
  | .scalar s =>
    if s.isPositive then .complexInfinity
    else if s.isNegative then zero
    else undefined
  | exponent => .power .complexInfinity exponent

/-- The exponent of the imaginary factor `e^(i π q)` that a term is the exponent
of. -/
def turns? (a : Term) : Option Rat :=
  match a with
  | .product factors =>
    let (numbers, others) := factors.partition fun b => b.rational?.isSome
    match numbers, others with
    | [], [.constant .pi, .constant .i] => some 1
    | [.scalar (.exact q)], [.constant .pi, .constant .i] => some q
    | _, _ => none
  | _ => none

/-- Splits a constant complex number with rational parts. -/
def complexParts? : Term → Option (Rat × Rat)
  | .constant .i => some (0, 1)
  | .product [.scalar (.exact q), .constant .i] => some (0, q)
  | .sum [.scalar (.exact r), .constant .i] => some (r, 1)
  | .sum [.scalar (.exact r), .product [.scalar (.exact q), .constant .i]] => some (r, q)
  | _ => none

/-- The complex number with rational parts. -/
def ofComplexParts (re im : Rat) : Term :=
  add (ofRat re) (scale (.exact im) i)

/-- The logarithm whose inverse is a factor of the exponent and whose argument is
the base; the other factors of the exponent. -/
def splitInverseLog? (base exponent : Term) : Option (List Term) :=
  let isInverse : Term → Bool
    | .power (.apply .log a) (.scalar (.exact (-1))) => same a base
    | _ => false
  if exponent.factors.any isInverse then
    some (exponent.factors.filter fun a => !isInverse a)
  else none

/-- Divides the factors of a product raised to a fractional power: those that
the power may be taken of one by one, the sign, and all others. -/
def separable : List Term → List Term × Bool × List Term
  | [] => ([], false, [])
  | a :: rest =>
    let (apart, negative, others) := separable rest
    let facts := a.facts
    if facts.isNonnegative then (a :: apart, negative, others)
    else if facts.isNegative then (neg a :: apart, !negative, others)
    else (apart, negative, a :: others)

mutual

/-- The product of terms. -/
def mulWithin : Nat → List Term → Term
  | 0, factors => .product factors
  | fuel + 1, terms =>
    let parts := (terms.flatMap factors).foldl ProductParts.mul {}
    let powers := ProductParts.mergeNumbers parts.powers
    let settled := powers.map fun entry =>
      if entry.collected then powerWithin fuel entry.base entry.exponent
      else if same entry.exponent one then entry.base
      else .power entry.base entry.exponent
    let simple := (powers.zip settled).all fun (entry, a) =>
      !entry.collected ||
        match a with
        | .power base _ => same base entry.base && !(base.rational?.isSome && same entry.rest one)
        | .product _ => false
        | .scalar s => s.isOne
        | a => same a entry.base
    if simple then
      ProductParts.finish parts.number parts.infinite parts.phase
        (settled.filter fun a => !same a one)
    else
      let (sign, phase) := splitPhase parts.phase
      mulWithin fuel
        (.scalar (if sign.isOne then parts.number else parts.number.mul sign) ::
          ((if parts.infinite then [.complexInfinity] else []) ++ phaseFactor phase ++ settled))

/-- A power of the constant `e`. -/
def expWithin : Nat → Term → Term
  | 0, exponent => .power e exponent
  | fuel + 1, exponent =>
    match exponent with
    | .scalar (.binary b) =>
      if b.value = 0 then one
      else
        match Binary.exp? b.precision b.value with
        | some q => .scalar (.ofBinary b.precision q)
        | none => .power e exponent
    | .scalar (.infinity negative) => if negative then zero else infinity
    | .apply .log a => a
    | .sum terms =>
      let values := terms.map fun a => (a, powerWithin fuel e a)
      let kept := values.filterMap fun (a, value) =>
        match value with
        | .power (.constant .e) a => some a
        | .constant .e => some a
        | _ => none
      let out := values.filterMap fun (_, value) =>
        match value with
        | .power (.constant .e) _ => none
        | .constant .e => none
        | value => some value
      if out.isEmpty then .power e (addAll kept)
      else
        let rest := addAll kept
        mulWithin fuel (out ++
          [if same rest zero then one else if same rest one then e else .power e rest])
    | .product factors =>
      match turns? exponent with
      | some q =>
        if (2 * q).den = 1 then ProductParts.finish .one false q []
        else
          let reduced := q - 2 * ((q + 1) / 2).floor
          let reduced := if reduced = -1 then 1 else reduced
          .power e (productOf (.exact reduced) [pi, i])
      | none =>
        let (logs, others) := factors.partition fun a => a matches .apply .log _
        match logs with
        | [.apply .log a] =>
          if others.all fun b => b.isConstant && b.facts.isReal && b.facts.isFinite then
            powerWithin fuel a (productOf .one others)
          else .power e exponent
        | _ => .power e exponent
    | exponent => .power e exponent

/-- A power of terms. -/
def powerWithin : Nat → Term → Term → Term
  | 0, base, exponent => .power base exponent
  | fuel + 1, base, exponent =>
    if exponent matches .complexInfinity then undefined
    else if exponent.rational? == some 0 then one
    else if exponent.rational? == some 1 then base
    else if base matches .scalar .undefined || exponent matches .scalar .undefined then undefined
    else if base.rational? == some 1 then
      if exponent.facts.isInfinite then undefined else one
    else
      match splitInverseLog? base exponent with
      | some others => expWithin fuel (mulWithin fuel others)
      | none =>
        match base with
        | .scalar s => scalarPower s exponent
        | .complexInfinity => complexInfinityPower exponent
        | .constant .e => expWithin fuel exponent
        | .constant .i =>
          match exponent.rational? with
          | some q => ProductParts.finish .one false (q / 2) []
          | none => .power base exponent
        | .power inner outer =>
          let merged := powerWithin fuel inner (mulWithin fuel [outer, exponent])
          if exponent.integer?.isSome then merged
          else
            let innerFacts := inner.facts
            match outer.rational? with
            | some q =>
              let halves := (exponent.rational?.map Rat.den) == some 2
              if q = -1 && halves && innerFacts.isNegative then
                mulWithin fuel
                  [powerWithin fuel minusOne exponent,
                   powerWithin fuel (neg inner) (neg exponent)]
              else if q.num.natAbs < q.den || innerFacts.isNonnegative then merged
              else if q.den = 1 && q.num % 2 = 0 && innerFacts.isReal then
                let size := if innerFacts.isNegative then neg inner else .apply .abs inner
                powerWithin fuel size (mulWithin fuel [outer, exponent])
              else .power base exponent
            | none =>
              if outer.facts.isReal && innerFacts.isNonnegative then merged
              else .power base exponent
        | .product factors =>
          if exponent.integer?.isSome then
            mulWithin fuel (factors.map fun a => powerWithin fuel a exponent)
          else
            match exponent with
            | .scalar s =>
              if s.isFinite then
                let (apart, negative, others) := separable factors
                let sign := if negative then [minusOne] else []
                if apart.isEmpty then .power base exponent
                else
                  let rest :=
                    match sign ++ others with
                    | [] => []
                    | [a] => [powerWithin fuel a exponent]
                    | many => [.power (.product many) exponent]
                  mulWithin fuel ((apart.map fun a => powerWithin fuel a exponent) ++ rest)
              else .power base exponent
            | exponent => .power base exponent
        | .sum terms =>
          match complexParts? (.sum terms), exponent.rational? with
          | some (re, im), some (-1) =>
            scale (.exact (1 / (re * re + im * im))) (ofComplexParts re (-im))
          | some (re, im), some q =>
            match ratPower (re * re + im * im) (mkRat 1 2) with
            | .scalar (.exact size) =>
              if q = mkRat 1 2 then
                mulWithin fuel
                  [ratPower ((size - re) / 2) (mkRat 1 2),
                   ofComplexParts ((size + re) / (if im < 0 then -im else im))
                     (if im < 0 then -1 else 1)]
              else .power base exponent
            | _ => .power base exponent
          | _, _ => .power base exponent
        | .apply .abs a =>
          match exponent.integer? with
          | some n =>
            if n % 2 = 0 && a.facts.isReal then powerWithin fuel a exponent
            else .power base exponent
          | none => .power base exponent
        | base => .power base exponent

end

/-- How deep products and powers may call each other. -/
def depth : Nat := 48

/-- The product of terms. -/
def mulAll (terms : List Term) : Term :=
  mulWithin depth terms

def mul (a b : Term) : Term :=
  match a, b with
  | .scalar s, .scalar t => .scalar (s.mul t)
  | a, b => mulAll [a, b]

def pow (base exponent : Term) : Term :=
  powerWithin depth base exponent

/-- The exponential function. -/
def exp (a : Term) : Term :=
  pow e a

def inverse (a : Term) : Term :=
  pow a minusOne

def div (a b : Term) : Term :=
  match a, b with
  | .scalar s, .scalar t =>
    if s.isFinite && t.isFinite && !t.isZero then .scalar (s.div t) else mul a (inverse b)
  | a, b => mul a (inverse b)

def sqrt (a : Term) : Term :=
  pow a half

end Term
end FormulaLine

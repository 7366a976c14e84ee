import FormulaLine.Algebra.Enclosure

namespace FormulaLine
namespace Term

/-!
Terms as text.
-/

/-- How many decimal digits are shown of a binary number of a precision. -/
def shownDigits (precision : Nat) : Nat :=
  max 1 (Binary.divNearest (precision * 10000000000000000) 33219280948873626 - 1)

def natText (n : Nat) : List Char := Nat.toDigits 10 n

def intText (n : Int) : List Char :=
  if n < 0 then '-' :: natText n.natAbs else natText n.natAbs

def ratText (q : Rat) : List Char :=
  if q.den = 1 then intText q.num else intText q.num ++ '/' :: natText q.den

/-- Zeros at the end of a list of digits are dropped. -/
def dropZeros (digits : List Char) : List Char :=
  (digits.reverse.dropWhile (· == '0')).reverse

/-- The exponent of the first decimal digit of a positive number, found by
comparing powers of ten from an estimate on. -/
def decimalExponent (q : Rat) : Nat → Int → Int
  | 0, guess => guess
  | fuel + 1, guess =>
    if q < (10 : Rat) ^ guess then decimalExponent q fuel (guess - 1)
    else if (10 : Rat) ^ (guess + 1) ≤ q then decimalExponent q fuel (guess + 1)
    else guess

/-- A positive number with the given count of significant digits, in positional
notation from `1e-4` to below ten to that count, and with an exponent elsewhere. A
half is rounded up. -/
def positiveText (digits : Nat) (strip : Bool) (q : Rat) : List Char :=
  let estimate : Int := (((q.num.natAbs.log2 : Int) - q.den.log2) * 30103).fdiv 100000
  let exponent := decimalExponent q 8 estimate
  let rounded := (q * (10 : Rat) ^ ((digits : Int) - 1 - exponent) + 1 / 2).floor.toNat
  let (rounded, exponent) :=
    if rounded = Nat.pow 10 digits then (rounded / 10, exponent + 1) else (rounded, exponent)
  let shown := natText rounded
  let positional := -5 < exponent ∧ exponent < digits
  let (whole, fraction) :=
    if positional then
      if exponent < 0 then (['0'], List.replicate (-exponent - 1).toNat '0' ++ shown)
      else shown.splitAt (exponent.toNat + 1)
    else shown.splitAt 1
  let fraction := if strip then dropZeros fraction else fraction
  let fraction := if strip && fraction.isEmpty then ['0'] else fraction
  whole ++ '.' :: fraction ++
    if positional then []
    else if exponent < 0 then 'e' :: intText exponent
    else 'e' :: '+' :: intText exponent

/-- A binary number, with or without the zeros at its end. -/
def binaryText (strip : Bool) (b : Binary) : List Char :=
  let digits := shownDigits b.precision
  if b.value = 0 then ['0']
  else if b.value < 0 then '-' :: positiveText digits strip (-b.value)
  else positiveText digits strip b.value

/-- A number inside a term. -/
def scalarText : Scalar → List Char
  | .exact q => ratText q
  | .binary b => binaryText true b
  | .infinity false => "oo".toList
  | .infinity true => "-oo".toList
  | .undefined => "nan".toList

def functionText : Elementary → List Char
  | .abs => "Abs".toList
  | .sign => "sign".toList
  | .floor => "floor".toList
  | .ceiling => "ceiling".toList
  | .sin => "sin".toList
  | .cos => "cos".toList
  | .tan => "tan".toList
  | .asin => "asin".toList
  | .acos => "acos".toList
  | .atan => "atan".toList
  | .sinh => "sinh".toList
  | .cosh => "cosh".toList
  | .tanh => "tanh".toList
  | .log => "log".toList
  | .step => "Piecewise".toList

/-- How tightly a term is bound where it stands. -/
inductive Binding where
  | loose | product | power
  deriving DecidableEq

def parenthesise (text : List Char) : List Char :=
  '(' :: (text ++ [')'])

/-- Whether the text of a number needs parentheses as the base of a power. -/
def needsParens : Scalar → Bool
  | .exact q => q < 0 || q.den != 1
  | .binary b => b.value < 0
  | .infinity negative => negative
  | .undefined => false

/-- A text with the sign that joins it to the summand before. -/
def joined (text : List Char) : List Char :=
  match text with
  | '-' :: text => " - ".toList ++ text
  | text => " + ".toList ++ text

/-- The power of symbols in a summand. -/
def degree : Term → Int
  | .symbol _ => 1
  | .power (.symbol _) (.scalar (.exact q)) => q.floor
  | .product factors =>
    factors.foldl (fun total a =>
      match a with
      | .symbol _ => total + 1
      | .power (.symbol _) (.scalar (.exact q)) => total + q.floor
      | _ => total) 0
  | _ => 0

/-- Significant bits of the values by which constant summands are ordered. -/
def orderingPrecision : Nat := 53

/-- Where a summand stands in the text of a sum: by falling powers of symbols, then
the constants by their value. -/
structure SummandPlace where
  degree : Int
  constant : Bool
  value : Rat

def summandPlace (a : Term) : SummandPlace where
  degree := a.degree
  constant := a.isConstant
  value := (a.constantRounded? orderingPrecision).getD 0

/-- Whether a summand stands after another. -/
def SummandPlace.isAfter (a b : SummandPlace) : Bool :=
  a.degree < b.degree ||
    (a.degree == b.degree && a.constant && (!b.constant || decide (b.value < a.value)))

/-- Inserts a text before the first one that stands after it. -/
def insertByPlace (a : SummandPlace × List Char) :
    List (SummandPlace × List Char) → List (SummandPlace × List Char)
  | [] => [a]
  | b :: rest => if a.1.isAfter b.1 then b :: insertByPlace a rest else a :: b :: rest

/-- Whether a sum is a positive number less a multiple of one factor.  Then the
number is written first. -/
def numberLeads : List Term → Bool
  | [.scalar s, .product [.scalar t, _]] => s.isPositive && t.isNegative
  | _ => false

/-- Where a factor stands in the text of a product. -/
def factorPlace : Term → Nat
  | .scalar _ => 0
  | .complexInfinity => 1
  | .constant .e => 2
  | .constant .i => 3
  | .constant .pi => 4
  | .symbol _ => 5
  | .product _ | .sum _ => 6
  | .apply _ _ | .call _ _ | .foreign _ => 7
  | .power (.constant .e) _ => 7
  | .power base _ => factorPlace base

/-- A factor as it is written: its place, whether it stands below the fraction bar,
and its text. -/
structure WrittenFactor where
  place : Nat
  below : Bool
  text : List Char

/-- Inserts a factor before the first one of a later place. -/
def insertFactor (a : WrittenFactor) : List WrittenFactor → List WrittenFactor
  | [] => [a]
  | b :: rest => if b.place < a.place then b :: insertFactor a rest else a :: b :: rest

/-- A quotient of products of texts, with a rational number in front. -/
def quotientText (number : Rat) (factors : List WrittenFactor) : List Char :=
  let factors := factors.foldr insertFactor []
  let above := (factors.filter fun a => !a.below).map WrittenFactor.text
  let below := (factors.filter WrittenFactor.below).map WrittenFactor.text
  let sign := if number < 0 then ['-'] else []
  let above := if number.num.natAbs = 1 then above else natText number.num.natAbs :: above
  let below := if number.den = 1 then below else natText number.den :: below
  let numerator := if above.isEmpty then ['1'] else ['*'].intercalate above
  match below with
  | [] => sign ++ numerator
  | [divisor] => sign ++ numerator ++ '/' :: divisor
  | divisors => sign ++ numerator ++ '/' :: parenthesise (['*'].intercalate divisors)

/-- The text of a sum of written summands. -/
def sumText (summands : List (List Char)) : List Char :=
  match summands with
  | [] => []
  | first :: rest => first ++ rest.flatMap joined

/-- The text of a power with a rational exponent other than one half. -/
def powerText (base : List Char) (q : Rat) : List Char :=
  if q = 1 then base
  else base ++ "**".toList ++ (if q < 0 ∨ q.den ≠ 1 then parenthesise (ratText q) else ratText q)

def sqrtText (argument : List Char) : List Char :=
  "sqrt".toList ++ parenthesise argument

/-- The text of an application, where `argument` is the text of its argument. -/
def applyText (f : Elementary) (argument : List Char) : List Char :=
  match f with
  | .step => "Piecewise((1, ".toList ++ argument ++ " >= 0), (-1, True))".toList
  | f => functionText f ++ parenthesise argument

mutual

/-- The text of a term inside another. -/
def render (binding : Binding) : Term → List Char
  | .scalar s =>
    if binding = .power ∧ needsParens s then parenthesise (scalarText s) else scalarText s
  | .complexInfinity => "zoo".toList
  | .constant .pi => "pi".toList
  | .constant .e => ['E']
  | .constant .i => ['I']
  | .symbol name => name
  | .sum terms =>
    let written := renderSum terms
    let ordered := if numberLeads terms then written else written.foldr insertByPlace []
    let text := sumText (ordered.map Prod.snd)
    if binding = .loose then text else parenthesise text
  | .product factors =>
    let text :=
      match factors with
      | .scalar (.exact q) :: _ => quotientText q (renderFactors factors)
      | .scalar s :: _ => quotientText 1 (⟨0, false, scalarText s⟩ :: renderFactors factors)
      | _ => quotientText 1 (renderFactors factors)
    if binding = .power then parenthesise text else text
  | .power (.constant .e) exponent => "exp".toList ++ parenthesise (render .loose exponent)
  | .power base (.scalar (.exact q)) =>
    if q = mkRat 1 2 then sqrtText (render .loose base)
    else
      let text :=
        if q = -1 then '1' :: '/' :: render .product base
        else if q = mkRat (-1) 2 then '1' :: '/' :: sqrtText (render .loose base)
        else powerText (render .power base) q
      if binding = .power then parenthesise text else text
  | .power base exponent =>
    let text := render .power base ++ "**".toList ++ render .power exponent
    if binding = .power then parenthesise text else text
  | .apply f argument => applyText f (render .loose argument)
  | .call name arguments => name ++ parenthesise (renderItems arguments)
  | .foreign name => name

/-- The texts of summands with their places. -/
def renderSum : List Term → List (SummandPlace × List Char)
  | [] => []
  | a :: rest => (summandPlace a, render .loose a) :: renderSum rest

/-- The factors of a product without the number in front. -/
def renderFactors : List Term → List WrittenFactor
  | [] => []
  | .scalar _ :: rest => renderFactors rest
  | .power (.constant .e) exponent :: rest =>
    ⟨factorPlace (.power (.constant .e) exponent), false,
      "exp".toList ++ parenthesise (render .loose exponent)⟩ :: renderFactors rest
  | .power base (.scalar (.exact q)) :: rest =>
    let text :=
      if q = -1 then render .product base
      else if q = mkRat 1 2 ∨ q = mkRat (-1) 2 then sqrtText (render .loose base)
      else powerText (render .power base) (if q < 0 then -q else q)
    ⟨factorPlace base, q < 0, text⟩ :: renderFactors rest
  | a :: rest => ⟨factorPlace a, false, render .product a⟩ :: renderFactors rest

/-- The texts of arguments. -/
def renderItems : List Term → List Char
  | [] => []
  | [a] => render .loose a
  | a :: rest => render .loose a ++ ',' :: ' ' :: renderItems rest

end

/-! ### Roots -/

/-- Multiplies a natural number into the first root of the same kind. -/
def joinRoot (n q : Rat) : List Term → List Term
  | [] => [.power (ofRat n) (ofRat q)]
  | .power (.scalar (.exact m)) (.scalar (.exact r)) :: rest =>
    if m.den = 1 ∧ r = q then .power (ofRat (n * m)) (ofRat q) :: rest
    else .power (ofRat m) (ofRat r) :: joinRoot n q rest
  | a :: rest => a :: joinRoot n q rest

/-- Joins the roots of natural numbers that are of the same kind. -/
def joinAll (factors : List Term) : List Term :=
  factors.foldr (fun a rest =>
    match a with
    | .power (.scalar (.exact n)) (.scalar (.exact q)) =>
      if n.den = 1 ∧ 0 < n then joinRoot n q rest else a :: rest
    | a => a :: rest) []

mutual

/-- The term with one root in place of several of the same kind. -/
def withJoinedRoots : Term → Term
  | .sum terms => .sum (withJoinedRootsOf terms)
  | .product factors => productOf .one (joinAll (withJoinedRootsOf factors))
  | .power base exponent => .power (withJoinedRoots base) (withJoinedRoots exponent)
  | .apply f argument => .apply f (withJoinedRoots argument)
  | .call name arguments => .call name (withJoinedRootsOf arguments)
  | a => a

def withJoinedRootsOf : List Term → List Term
  | [] => []
  | a :: rest => withJoinedRoots a :: withJoinedRootsOf rest

end

/-- The text of a term.  Zeros at the end of a binary number are kept if it is the
whole term. -/
def text (a : Term) : List Char :=
  match a with
  | .scalar (.binary b) => binaryText false b
  | a => render .loose a.withJoinedRoots

end Term
end FormulaLine

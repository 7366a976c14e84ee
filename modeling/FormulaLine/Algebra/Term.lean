import FormulaLine.Number.Scalar
import FormulaLine.Text.Order

namespace FormulaLine

/-!
Terms of the algebra.

Sums and products are flat lists in the order of `Term.compare`, a number first,
so that equal terms are equal as trees.  The exponential function is the power
with base `e`, quotients are products with a negative power, and a radical is a
power of a natural number with an exponent between zero and one.
-/

/-- Constants that are not numbers of the algebra. -/
inductive Constant where
  | pi
  | e
  /-- The imaginary unit. -/
  | i
  deriving DecidableEq

/-- The functions that a term may apply.  The exponential function and roots are
powers and need no constructor. -/
inductive Elementary where
  | abs | sign | floor | ceiling
  | sin | cos | tan
  | asin | acos | atan
  | sinh | cosh | tanh
  | log
  /-- One for nonnegative numbers and minus one for all others. -/
  | step
  deriving DecidableEq

inductive Term where
  | scalar (value : Scalar)
  | complexInfinity
  | constant (value : Constant)
  | symbol (name : List Char)
  | sum (terms : List Term)
  | product (factors : List Term)
  | power (base exponent : Term)
  | apply (function : Elementary) (argument : Term)
  /-- A function outside the vocabulary, applied to its arguments. -/
  | call (name : List Char) (arguments : List Term)
  /-- A value that is no expression, as the argument of a call. -/
  | foreign (name : List Char)

namespace Term

def ofRat (q : Rat) : Term := .scalar (.exact q)
def ofInt (n : Int) : Term := .scalar (.ofInt n)

def zero : Term := ofInt 0
def one : Term := ofInt 1
def two : Term := ofInt 2
def minusOne : Term := ofInt (-1)
def half : Term := ofRat (mkRat 1 2)
def undefined : Term := .scalar .undefined
def infinity : Term := .scalar (.infinity false)
def pi : Term := .constant .pi
def e : Term := .constant .e
def i : Term := .constant .i

/-- The position of a term's kind in the order of terms. -/
def rank : Term → Nat
  | .scalar _ => 0
  | .complexInfinity => 1
  | .constant _ => 2
  | .symbol _ => 3
  | .power _ _ => 4
  | .apply _ _ => 5
  | .call _ _ => 6
  | .foreign _ => 7
  | .product _ => 8
  | .sum _ => 9

def constantIndex : Constant → Nat
  | .pi => 0
  | .e => 1
  | .i => 2

def elementaryIndex : Elementary → Nat
  | .abs => 0
  | .sign => 1
  | .floor => 2
  | .ceiling => 3
  | .sin => 4
  | .cos => 5
  | .tan => 6
  | .asin => 7
  | .acos => 8
  | .atan => 9
  | .sinh => 10
  | .cosh => 11
  | .tanh => 12
  | .log => 13
  | .step => 14

mutual

/-- A total order of terms. -/
def compare : Term → Term → Ordering
  | .scalar a, .scalar b => Scalar.compare a b
  | .constant a, .constant b => Ord.compare (constantIndex a) (constantIndex b)
  | .symbol a, .symbol b => Text.compare a b
  | .sum as, .sum bs => compareLists as bs
  | .product as, .product bs => compareLists as bs
  | .power a m, .power b n => (compare a b).then (compare m n)
  | .apply f a, .apply g b =>
    (Ord.compare (elementaryIndex f) (elementaryIndex g)).then (compare a b)
  | .call f as, .call g bs => (Text.compare f g).then (compareLists as bs)
  | .foreign a, .foreign b => Text.compare a b
  | a, b => Ord.compare a.rank b.rank

/-- Compares lists of terms by their first difference. -/
def compareLists : List Term → List Term → Ordering
  | [], [] => .eq
  | [], _ :: _ => .lt
  | _ :: _, [] => .gt
  | a :: as, b :: bs => (compare a b).then (compareLists as bs)

end

/-- Whether two terms are equal as trees. -/
def same (a b : Term) : Bool := compare a b == .eq

/-- Inserts a term into an ordered list. -/
def insert (a : Term) : List Term → List Term
  | [] => [a]
  | b :: rest => if compare a b == .gt then b :: insert a rest else a :: b :: rest

/-- Orders a list of terms. -/
def sort : List Term → List Term
  | [] => []
  | a :: rest => insert a (sort rest)

mutual

/-- Whether the condition holds for the term or some part of it. -/
def any (condition : Term → Bool) : Term → Bool
  | .sum terms => condition (.sum terms) || anyOf condition terms
  | .product factors => condition (.product factors) || anyOf condition factors
  | .power base exponent =>
    condition (.power base exponent) || any condition base || any condition exponent
  | .apply f argument => condition (.apply f argument) || any condition argument
  | .call name arguments => condition (.call name arguments) || anyOf condition arguments
  | .scalar value => condition (.scalar value)
  | .complexInfinity => condition .complexInfinity
  | .constant value => condition (.constant value)
  | .symbol name => condition (.symbol name)
  | .foreign name => condition (.foreign name)

def anyOf (condition : Term → Bool) : List Term → Bool
  | [] => false
  | a :: rest => any condition a || anyOf condition rest

end

mutual

/-- All parts of a term, the term itself first. -/
def parts : Term → List Term
  | .sum terms => .sum terms :: partsOf terms
  | .product factors => .product factors :: partsOf factors
  | .power base exponent => .power base exponent :: (parts base ++ parts exponent)
  | .apply f argument => .apply f argument :: parts argument
  | .call name arguments => .call name arguments :: partsOf arguments
  | a => [a]

def partsOf : List Term → List Term
  | [] => []
  | a :: rest => parts a ++ partsOf rest

end

/-- Whether the term has a value of its own: it holds neither a symbol nor a call. -/
def isConstant (a : Term) : Bool :=
  !a.any fun
    | .symbol _ => true
    | .call _ _ => true
    | .foreign _ => true
    | _ => false

/-- Whether an undefined number occurs in the term. -/
def isUndefined (a : Term) : Bool :=
  a.any fun
    | .scalar .undefined => true
    | _ => false

/-- The names of an ordered list without repetitions. -/
def dropRepeats : List (List Char) → List (List Char)
  | [] => []
  | [a] => [a]
  | a :: b :: rest => if a = b then dropRepeats (b :: rest) else a :: dropRepeats (b :: rest)

/-- The symbols of a term, in order and each once. -/
def symbols (a : Term) : List (List Char) :=
  dropRepeats <| Text.sort <| a.parts.filterMap fun
    | .symbol name => some name
    | _ => none

/-- The terms of an ordered list without repetitions. -/
def dropSame : List Term → List Term
  | [] => []
  | [a] => [a]
  | a :: b :: rest => if same a b then dropSame (b :: rest) else a :: dropSame (b :: rest)

/-- The names of the different calls of a term; a name stands once for each list of
arguments it is applied to. -/
def callNames (a : Term) : List (List Char) :=
  let calls := dropSame <| sort <| a.parts.filter fun
    | .call _ _ => true
    | _ => false
  calls.filterMap fun
    | .call name _ => some name
    | _ => none

/-- The exact number that a term is. -/
def rational? : Term → Option Rat
  | .scalar (.exact q) => some q
  | _ => none

/-- The exact integer that a term is. -/
def integer? : Term → Option Int
  | .scalar s => s.integer?
  | _ => none

/-- The number in front of a term, and what it multiplies. -/
def splitCoefficient : Term → Scalar × Term
  | .scalar s => (s, one)
  | .product [.scalar s, a] => (s, a)
  | .product (.scalar s :: rest) => (s, .product rest)
  | a => (.one, a)

/-- The terms that a term is the sum of. -/
def summands : Term → List Term
  | .sum terms => terms
  | a => [a]

/-- The terms that a term is the product of. -/
def factors : Term → List Term
  | .product factors => factors
  | a => [a]

/-- Base and exponent of a term that is read as a power. -/
def splitPower : Term → Term × Term
  | .power base exponent => (base, exponent)
  | a => (a, one)

/-- A product of factors that are already combined and ordered. -/
def productOf (coefficient : Scalar) (factors : List Term) : Term :=
  match coefficient.isOne, factors with
  | true, [] => one
  | true, [a] => a
  | true, factors => .product factors
  | false, [] => .scalar coefficient
  | false, factors => .product (.scalar coefficient :: factors)

/-- A sum of terms that are already combined and ordered. -/
def sumOf : List Term → Term
  | [] => zero
  | [a] => a
  | terms => .sum terms

end Term
end FormulaLine

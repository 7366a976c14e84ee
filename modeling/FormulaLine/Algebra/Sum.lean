import FormulaLine.Algebra.Facts

namespace FormulaLine
namespace Term

/-!
Sums of terms.  Like terms are collected: a term occurs once, with the sum of its
numbers in front of it.  A number distributes over a sum.  An infinite summand
absorbs the summands that are known to be finite and real; two infinite summands
that do not agree make the sum undefined.
-/

/-- Inserts a summand into a list that is ordered by what the numbers multiply. -/
def insertSummand (a : Term) : List Term → List Term
  | [] => [a]
  | b :: rest =>
    if compare (splitCoefficient a).2 (splitCoefficient b).2 == .gt then
      b :: insertSummand a rest
    else a :: b :: rest

/-- Orders summands by what the numbers in front of them multiply, so that a sum
and its opposite list their summands alike. -/
def sortSummands : List Term → List Term
  | [] => []
  | a :: rest => insertSummand a (sortSummands rest)

/-- A number times a summand. -/
def scaleSummand (s : Scalar) (a : Term) : Term :=
  match splitCoefficient a with
  | (c, .scalar (.exact q)) => .scalar (s.mul (c.mul (.exact q)))
  | (c, .product factors) => productOf (s.mul c) factors
  | (c, rest) => productOf (s.mul c) [rest]

/-- A number times a term. -/
def scale (s : Scalar) (a : Term) : Term :=
  if s.isOne then a
  else
    match s, a with
    | .undefined, _ => undefined
    | s, .scalar t => .scalar (s.mul t)
    | s, .complexInfinity => if s.isZero then undefined else .complexInfinity
    | s, a =>
      if s.isZero then
        if a.factors.any fun factor => factor.facts.isInfinite then undefined else .scalar s
      else if s.isFinite then
        match splitCoefficient a with
        | (c, .sum terms) => sumOf (terms.map (scaleSummand (s.mul c)))
        | _ => scaleSummand s a
      else scaleSummand s a

/-- The opposite of a term. -/
def neg (a : Term) : Term :=
  match a with
  | .scalar s => .scalar s.neg
  | a => scale .minusOne a

/-- What has been added up so far. -/
structure SumParts where
  /-- The sum of the numbers. -/
  number : Scalar := .zero
  /-- Whether complex infinity is a summand. -/
  infinite : Bool := false
  /-- The other summands, each once, with the numbers in front of them. -/
  terms : List (Term × Scalar) := []

namespace SumParts

/-- Adds to the number in front of a term. -/
def addTerm (a : Term) (s : Scalar) : List (Term × Scalar) → List (Term × Scalar)
  | [] => [(a, s)]
  | (b, t) :: rest => if same a b then (b, t.add s) :: rest else (b, t) :: addTerm a s rest

/-- Adds a summand that is no sum. -/
def add (parts : SumParts) (a : Term) : SumParts :=
  match a with
  | .scalar s =>
    if parts.infinite then
      if s.isFinite then parts else { parts with number := .undefined }
    else { parts with number := parts.number.add s }
  | .complexInfinity =>
    if parts.infinite || !parts.number.isFinite then { parts with number := .undefined }
    else { parts with infinite := true }
  | a =>
    let (s, rest) := splitCoefficient a
    { parts with terms := addTerm rest s parts.terms }

/-- The sum of the parts. -/
def total (parts : SumParts) : Term :=
  match parts.number with
  | .undefined => undefined
  | number =>
    if parts.terms.any fun (_, s) => s.isUndefined then undefined
    else
      let terms := (parts.terms.filter fun (_, s) => !s.isZero).map fun (a, s) =>
        if s.isOne then a else scaleSummand s a
      if parts.infinite then
        sumOf (.complexInfinity :: sortSummands (terms.filter fun a =>
          !(a.facts.isFinite && a.facts.real.isSome)))
      else
        let absorbed (a : Term) : Bool :=
          match number with
          | .infinity negative =>
            (a.facts.isReal && a.facts.isFinite) ||
              (if negative then a.facts.isNonpositive else a.facts.isNonnegative)
          | _ => false
        let terms := sortSummands (terms.filter fun a => !absorbed a)
        if number.isZero && (number.isExact || !terms.isEmpty) then sumOf terms
        else sumOf (.scalar number :: terms)

end SumParts

/-- The sum of terms. -/
def addAll (terms : List Term) : Term :=
  ((terms.flatMap summands).foldl SumParts.add {}).total

def add (a b : Term) : Term :=
  match a, b with
  | .scalar s, .scalar t => .scalar (s.add t)
  | a, b => addAll [a, b]

def sub (a b : Term) : Term :=
  add a (neg b)

/-- Whether a term is written with a minus sign in front. -/
def looksNegative (a : Term) : Bool :=
  match a with
  | .sum terms =>
    let negatives := terms.countP fun b => (splitCoefficient b).1.isNegative
    if 2 * negatives = terms.length then
      (terms.getLast?.map fun b => (splitCoefficient b).1.isNegative).getD false
    else terms.length < 2 * negatives
  | a => (splitCoefficient a).1.isNegative

end Term
end FormulaLine

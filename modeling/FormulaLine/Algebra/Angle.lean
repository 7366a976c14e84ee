import FormulaLine.Algebra.Product

namespace FormulaLine
namespace Term

/-!
Sines, cosines and tangents of rational multiples of a half turn, and the angles
that belong to such values.  Angles are given as multiples of `π`.
-/

namespace Angle

def root (n : Nat) : Term := sqrt (ofInt n)

/-- `a + b √n`. -/
def surd (a b : Rat) (n : Nat) : Term :=
  add (ofRat a) (scale (.exact b) (root n))

/-- The cosines from zero to a right angle that are written with roots. -/
def cosines : List (Rat × Term) :=
  [(0, one),
   (mkRat 1 12, add (scale (.exact (mkRat 1 4)) (root 2)) (scale (.exact (mkRat 1 4)) (root 6))),
   (mkRat 1 10, sqrt (surd (mkRat 5 8) (mkRat 1 8) 5)),
   (mkRat 1 8, sqrt (surd (mkRat 1 2) (mkRat 1 4) 2)),
   (mkRat 1 6, scale (.exact (mkRat 1 2)) (root 3)),
   (mkRat 1 5, surd (mkRat 1 4) (mkRat 1 4) 5),
   (mkRat 1 4, scale (.exact (mkRat 1 2)) (root 2)),
   (mkRat 3 10, sqrt (surd (mkRat 5 8) (mkRat (-1) 8) 5)),
   (mkRat 1 3, half),
   (mkRat 3 8, sqrt (surd (mkRat 1 2) (mkRat (-1) 4) 2)),
   (mkRat 2 5, surd (mkRat (-1) 4) (mkRat 1 4) 5),
   (mkRat 5 12, sub (scale (.exact (mkRat 1 4)) (root 6)) (scale (.exact (mkRat 1 4)) (root 2))),
   (mkRat 1 2, zero)]

/-- The tangents from zero to below a right angle that are written with roots. -/
def tangents : List (Rat × Term) :=
  [(0, zero),
   (mkRat 1 12, surd 2 (-1) 3),
   (mkRat 1 10, sqrt (surd 1 (mkRat (-2) 5) 5)),
   (mkRat 1 8, surd (-1) 1 2),
   (mkRat 1 6, scale (.exact (mkRat 1 3)) (root 3)),
   (mkRat 1 5, sqrt (surd 5 (-2) 5)),
   (mkRat 1 4, one),
   (mkRat 3 10, sqrt (surd 1 (mkRat 2 5) 5)),
   (mkRat 1 3, root 3),
   (mkRat 3 8, surd 1 1 2),
   (mkRat 2 5, sqrt (surd 5 2 5)),
   (mkRat 5 12, surd 2 1 3)]

def lookup (q : Rat) (table : List (Rat × Term)) : Option Term :=
  (table.find? fun entry => entry.1 == q).map Prod.snd

/-- The angle of a value in a table. -/
def find? (value : Term) (table : List (Rat × Term)) : Option Rat :=
  (table.find? fun entry => same entry.2 value).map Prod.fst

/-- What is left of a number after the greatest multiple of `period` not above
it is taken away. -/
def reduce (q period : Rat) : Rat :=
  q - period * (q / period).floor

/-- A multiple of `π`. -/
def multiple (q : Rat) : Term :=
  scale (.exact q) pi

/-- The cosine of an angle from zero to a right angle. -/
def cosAcute (q : Rat) : Term :=
  (lookup q cosines).getD (.apply .cos (multiple q))

def cos (q : Rat) : Term :=
  let q := reduce q 2
  let q := if 1 < q then 2 - q else q
  if mkRat 1 2 < q then neg (cosAcute (1 - q)) else cosAcute q

/-- The sine of an angle from zero to a right angle. -/
def sinAcute (q : Rat) : Term :=
  (lookup (mkRat 1 2 - q) cosines).getD (.apply .sin (multiple q))

def sin (q : Rat) : Term :=
  let q := reduce q 2
  let acute (q : Rat) := if mkRat 1 2 < q then sinAcute (1 - q) else sinAcute q
  if 1 < q then neg (acute (q - 1)) else acute q

def tan (q : Rat) : Term :=
  let q := reduce q 1
  if q = mkRat 1 2 then .complexInfinity
  else
    let acute (q : Rat) := (lookup q tangents).getD (.apply .tan (multiple q))
    if mkRat 1 2 < q then neg (acute (1 - q)) else acute q

/-- The rational that a binary coefficient of `π` is read as: an integer, or a
number whose fractional part is made whole by the power of two nearest to its
inverse. -/
def ofBinary? (q : Rat) : Option Rat :=
  let size := if q < 0 then -q else q
  let part := size - size.floor
  if part = 0 then some q
  else
    let bits := Binary.bitLength part.den - Binary.bitLength part.num.natAbs
    let near (p : Nat) : Bool :=
      let square := part * part * (4 : Rat) ^ p
      decide (mkRat 1 2 ≤ square) && decide (square < 2)
    let p := if near bits then bits else if near (bits + 1) then bits + 1 else bits - 1
    if (q * (2 : Rat) ^ p).den = 1 then some q else none

/-- The angle that a term is, as a multiple of `π`. -/
def ofTerm? (a : Term) : Option Rat :=
  match a with
  | .constant .pi => some 1
  | .product [.scalar (.exact q), .constant .pi] => some q
  | .product [.scalar (.binary b), .constant .pi] => ofBinary? b.value
  | _ => none

/-- The greatest multiple of a right angle in a sum, and the rest of the sum. -/
def peel (a : Term) : Rat × Term :=
  let turns := a.summands.filterMap fun b =>
    match b with
    | .constant .pi => some 1
    | .product [.scalar (.exact q), .constant .pi] => some q
    | _ => none
  let total := turns.foldl (· + ·) 0
  let whole := total - reduce total (mkRat 1 2)
  if whole = 0 then (0, a) else (whole, sub a (multiple whole))

end Angle
end Term
end FormulaLine

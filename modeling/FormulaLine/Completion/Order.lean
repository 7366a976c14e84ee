namespace FormulaLine
namespace Completion

/-!
The display order of candidates: shorter ones first, and candidates of one
length in descending code point order.
-/

/-- Whether `a` is `b` or comes after it in the order of code points. -/
def notBefore : List Char → List Char → Bool
  | _, [] => true
  | [], _ :: _ => false
  | c :: a, d :: b => d.toNat < c.toNat || (c == d && notBefore a b)

/-- Whether `a` may stand before `b`. -/
def precedes (a b : List Char) : Bool :=
  a.length < b.length || (a.length == b.length && notBefore a b)

/-- Puts a candidate before the first one that it precedes. -/
def insertCandidate (c : List Char) : List (List Char) → List (List Char)
  | [] => [c]
  | d :: rest => if precedes c d then c :: d :: rest else d :: insertCandidate c rest

/-- The candidates in display order. -/
def sortCandidates : List (List Char) → List (List Char)
  | [] => []
  | c :: rest => insertCandidate c (sortCandidates rest)

end Completion
end FormulaLine

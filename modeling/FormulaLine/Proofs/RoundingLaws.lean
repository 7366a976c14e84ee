import FormulaLine.Algebra.Function
import Mathlib.Algebra.Order.Ring.Rat
import Mathlib.Data.Int.ConditionallyCompleteOrder
import Mathlib.Data.Rat.Floor
import Mathlib.Data.Sign.Basic
import Mathlib.Tactic.Linarith

namespace FormulaLine

/-!
# Rounding of rational numbers

Truncation and rounding are put together from the sign of a number and its size rounded
down.  Sign and size take care of the negative numbers: both functions are odd, so what
is to be shown of a number that is not negative carries over to its opposite
(`forall_of_nonneg`).  Of a number that is not negative the whole part is the floor, and
the nearest integer is the floor of what lies one half above.

An integer is told by what rounding promises of it, and not only has it: no other integer
has the size of the whole part, and of two integers equally near only one is further from
zero.  The laws hold of every rational number, and the functions of the vocabulary compute
with all of them exactly.  Of decimal numbers, which are binary, nothing is said.
-/

namespace Rounding

/-- The integer has the sign of the number or is zero, and its size is what is left of the
size of the number without the fraction. -/
structure IsWholePart (q : ℚ) (n : ℤ) : Prop where
  abs_le : |(n : ℚ)| ≤ |q|
  lt_abs_add_one : |q| < |(n : ℚ)| + 1
  sign_eq : n = 0 ∨ SignType.sign n = SignType.sign q

/-- No integer is nearer to the number, and of two that are equally near this is the one
further from zero. -/
structure IsNearest (q : ℚ) (n : ℤ) : Prop where
  abs_sub_le : |(n : ℚ) - q| ≤ 1 / 2
  further : ∀ m : ℤ, q = m + 1 / 2 → (n = m ∨ n = m + 1) ∧ |m| ≤ |n| ∧ |m + 1| ≤ |n|

/-! ## Sign and size -/

theorem magnitude_eq_abs (q : ℚ) : magnitude q = |q| := by
  rw [magnitude]
  split
  · exact (abs_of_neg ‹_›).symm
  · exact (abs_of_nonneg (not_lt.mp ‹_›)).symm

theorem sign_eq_sign (q : ℚ) : sign q = (SignType.sign q : ℤ) := by
  rcases lt_trichotomy q 0 with negative | rfl | positive
  · simp [sign, negative]
  · simp [sign]
  · simp [sign, positive, not_lt.mpr positive.le, positive.ne']

theorem sign_opposite (q : ℚ) : sign (-q) = -sign q := by
  rw [sign_eq_sign, sign_eq_sign, Left.sign_neg, SignType.coe_neg]

/-- Functions of the size that are given the sign of their argument are odd. -/
theorem trunc_neg (q : ℚ) : trunc (-q) = -trunc q := by
  rw [trunc, trunc, sign_opposite, magnitude_eq_abs, magnitude_eq_abs, abs_neg, neg_mul]

theorem round_neg (q : ℚ) : round (-q) = -round q := by
  rw [round, round, sign_opposite, magnitude_eq_abs, magnitude_eq_abs, abs_neg, neg_mul]

theorem fract_neg (q : ℚ) : fract (-q) = -fract q := by
  rw [fract, fract, trunc_neg]
  push_cast
  ring

theorem sign_mul_floor_of_nonneg {q size : ℚ} (nonneg : 0 ≤ q) (zero : q = 0 → size.floor = 0) :
    sign q * size.floor = size.floor := by
  rw [sign_eq_sign]
  rcases nonneg.eq_or_lt with here | positive
  · rw [zero here.symm, mul_zero]
  · rw [sign_pos positive, SignType.coe_one, one_mul]

theorem trunc_of_nonneg {q : ℚ} (nonneg : 0 ≤ q) : trunc q = q.floor := by
  rw [trunc, magnitude_eq_abs, abs_of_nonneg nonneg]
  exact sign_mul_floor_of_nonneg nonneg fun zero => by rw [zero]; rfl

theorem round_of_nonneg {q : ℚ} (nonneg : 0 ≤ q) : round q = (q + 1 / 2).floor := by
  rw [round, magnitude_eq_abs, abs_of_nonneg nonneg]
  exact sign_mul_floor_of_nonneg nonneg fun zero => by rw [zero]; decide +kernel

/-- What holds of the numbers that are not negative, and of the opposite of every number
of which it holds, holds of all numbers. -/
theorem forall_of_nonneg {P : ℚ → Prop} (of_nonneg : ∀ q, 0 ≤ q → P q)
    (of_opposite : ∀ q, P q → P (-q)) (q : ℚ) : P q := by
  rcases le_total 0 q with nonneg | nonpos
  · exact of_nonneg q nonneg
  · have opposite := of_opposite (-q) (of_nonneg (-q) (neg_nonneg.mpr nonpos))
    rwa [neg_neg] at opposite

theorem floor_bounds (q : ℚ) : (q.floor : ℚ) ≤ q ∧ q < (q.floor : ℚ) + 1 :=
  ⟨Rat.floor_le q, by exact_mod_cast Rat.lt_floor_add_one q⟩

/-! ## The whole part -/

theorem IsWholePart.neg {q : ℚ} {n : ℤ} (whole : IsWholePart q n) : IsWholePart (-q) (-n) where
  abs_le := by simpa using whole.abs_le
  lt_abs_add_one := by simpa using whole.lt_abs_add_one
  sign_eq := by
    rcases whole.sign_eq with zero | same
    · exact Or.inl (neg_eq_zero.mpr zero)
    · exact Or.inr (by rw [Left.sign_neg, Left.sign_neg, same])

theorem isWholePart_trunc (q : ℚ) : IsWholePart q (trunc q) := by
  refine forall_of_nonneg (P := fun q => IsWholePart q (trunc q)) ?_ ?_ q
  · intro q nonneg
    have bounds := floor_bounds q
    have floor_nonneg : 0 ≤ q.floor := Rat.le_floor_iff.mpr (by exact_mod_cast nonneg)
    have floor_abs : |(q.floor : ℚ)| = q.floor := abs_of_nonneg (by exact_mod_cast floor_nonneg)
    rw [trunc_of_nonneg nonneg]
    refine ⟨?_, ?_, ?_⟩
    · rw [floor_abs, abs_of_nonneg nonneg]
      exact bounds.1
    · rw [floor_abs, abs_of_nonneg nonneg]
      exact bounds.2
    · rcases floor_nonneg.eq_or_lt with zero | positive
      · exact Or.inl zero.symm
      · have above : 0 < q := lt_of_lt_of_le (by exact_mod_cast positive) bounds.1
        exact Or.inr (by rw [sign_pos positive, sign_pos above])
  · intro q whole
    rw [trunc_neg]
    exact whole.neg

/-- A number other than zero and its opposite have different signs. -/
theorem eq_zero_of_sign_neg {n : ℤ} (same : SignType.sign (-n) = SignType.sign n) : n = 0 := by
  rw [Left.sign_neg] at same
  have zero : ∀ s : SignType, -s = s → s = 0 := by decide
  exact sign_eq_zero_iff.mp (zero _ same)

/-- No other integer is a whole part. -/
theorem IsWholePart.eq {q : ℚ} {m n : ℤ} (first : IsWholePart q m) (second : IsWholePart q n) :
    m = n := by
  have below : |m| < |n| + 1 := by
    exact_mod_cast lt_of_le_of_lt first.abs_le second.lt_abs_add_one
  have above : |n| < |m| + 1 := by
    exact_mod_cast lt_of_le_of_lt second.abs_le first.lt_abs_add_one
  have size : |m| = |n| := le_antisymm (Int.lt_add_one_iff.mp below) (Int.lt_add_one_iff.mp above)
  rcases abs_eq_abs.mp size with same | rfl
  · exact same
  -- Of two opposite integers only one has the sign of the number, unless both are zero.
  rcases first.sign_eq with zero | signFirst
  · rw [zero, neg_eq_zero.mp zero]
  rcases second.sign_eq with zero | signSecond
  · rw [zero, neg_zero]
  · rw [eq_zero_of_sign_neg (signFirst.trans signSecond.symm), neg_zero]

theorem trunc_intCast (n : ℤ) : trunc n = n := by
  have itself : IsWholePart n n := by
    refine ⟨le_refl _, lt_add_one _, Or.inr ?_⟩
    rcases lt_trichotomy n 0 with negative | rfl | positive
    · rw [sign_neg negative, sign_neg (by exact_mod_cast negative)]
    · simp
    · rw [sign_pos positive, sign_pos (by exact_mod_cast positive)]
  exact (isWholePart_trunc n).eq itself

/-! ## What truncation takes away -/

/-- The fraction has a size below one, and not the sign opposite to that of the number. -/
theorem fract_bounds (q : ℚ) : |fract q| < 1 ∧ 0 ≤ fract q * q := by
  refine forall_of_nonneg (P := fun q => |fract q| < 1 ∧ 0 ≤ fract q * q) ?_ ?_ q
  · intro q nonneg
    have bounds := floor_bounds q
    have fract_nonneg : 0 ≤ q - q.floor := sub_nonneg.mpr bounds.1
    rw [fract, trunc_of_nonneg nonneg, abs_of_nonneg fract_nonneg]
    exact ⟨by linarith, mul_nonneg fract_nonneg nonneg⟩
  · intro q small
    rw [fract_neg, abs_neg, neg_mul_neg]
    exact small

/-! ## The nearest integer -/

theorem IsNearest.neg {q : ℚ} {n : ℤ} (nearest : IsNearest q n) : IsNearest (-q) (-n) where
  abs_sub_le := by
    have opposite : ((-n : ℤ) : ℚ) - -q = -(n - q) := by push_cast; ring
    rw [opposite, abs_neg]
    exact nearest.abs_sub_le
  further := by
    intro m halfway
    have halfway' : q = ((-m - 1 : ℤ) : ℚ) + 1 / 2 := by push_cast; linarith
    rcases nearest.further (-m - 1) halfway' with ⟨choice, first, second⟩
    have firstSize : |-m - 1| = |m + 1| := by rw [← abs_neg, neg_sub, sub_neg_eq_add, add_comm]
    have secondSize : |-m - 1 + 1| = |m| := by rw [sub_add_cancel, abs_neg]
    rw [firstSize] at first
    rw [secondSize] at second
    rw [abs_neg]
    exact ⟨by omega, second, first⟩

theorem isNearest_round (q : ℚ) : IsNearest q (round q) := by
  refine forall_of_nonneg (P := fun q => IsNearest q (round q)) ?_ ?_ q
  · intro q nonneg
    rw [round_of_nonneg nonneg]
    have bounds := floor_bounds (q + 1 / 2)
    refine ⟨abs_le.mpr ⟨by linarith, by linarith⟩, ?_⟩
    intro m halfway
    have above : q + 1 / 2 = ((m + 1 : ℤ) : ℚ) := by rw [halfway]; push_cast; ring
    have m_nonneg : 0 ≤ m := by
      have : (-1 : ℚ) < m := by linarith
      have : -1 < m := by exact_mod_cast this
      omega
    rw [above, Rat.floor_intCast, abs_of_nonneg m_nonneg, abs_of_nonneg (by omega)]
    exact ⟨Or.inr rfl, by omega, le_refl _⟩
  · intro q nearest
    rw [round_neg]
    exact nearest.neg

/-- Of two neighbours at most one is nearest: were the number halfway between them, both
would be the one further from zero. -/
theorem IsNearest.not_succ {q : ℚ} {n : ℤ} (nearest : IsNearest q n) : ¬ IsNearest q (n + 1) := by
  intro next
  have low := abs_le.mp nearest.abs_sub_le
  have high := abs_le.mp next.abs_sub_le
  push_cast at high
  have halfway : q = n + 1 / 2 := by linarith
  have first := (nearest.further n halfway).2.2
  have second := (next.further n halfway).2.1
  rcases abs_cases n with sizes | sizes <;> rcases abs_cases (n + 1) with sizes' | sizes' <;> omega

/-- No other integer is nearest. -/
theorem IsNearest.eq {q : ℚ} {m n : ℤ} (first : IsNearest q m) (second : IsNearest q n) :
    m = n := by
  have low := abs_le.mp first.abs_sub_le
  have high := abs_le.mp second.abs_sub_le
  have above : (m : ℚ) ≤ n + 1 := by linarith
  have below : (n : ℚ) ≤ m + 1 := by linarith
  have above : m ≤ n + 1 := by exact_mod_cast above
  have below : n ≤ m + 1 := by exact_mod_cast below
  rcases (by omega : m = n ∨ m = n + 1 ∨ n = m + 1) with same | rfl | rfl
  · exact same
  · exact absurd first second.not_succ
  · exact absurd second first.not_succ

theorem round_intCast (n : ℤ) : round n = n := by
  have itself : IsNearest n n := by
    refine ⟨by simp, ?_⟩
    intro m halfway
    have twice : (2 * n : ℚ) = 2 * m + 1 := by linarith
    have twice : 2 * n = 2 * m + 1 := by exact_mod_cast twice
    omega
  exact (isNearest_round n).eq itself

/-! ## The signum -/

theorem eq_signum_mul_abs (q : ℚ) :
    (signum q = 1 ∨ signum q = -1) ∧ q = signum q * |q| := by
  rw [signum]
  rcases le_or_gt 0 q with nonneg | negative
  · rw [if_pos nonneg, abs_of_nonneg nonneg]
    exact ⟨Or.inl rfl, by simp⟩
  · rw [if_neg (not_le.mpr negative), abs_of_neg negative]
    exact ⟨Or.inr rfl, by simp⟩

end Rounding

namespace Term

/-! ## The functions of the vocabulary -/

theorem facts_ofRat (q : ℚ) :
    (ofRat q).facts = { Facts.ofSign (if q < 0 then .lt else if q = 0 then .eq else .gt) with
      integer := some (q.den == 1) } := by
  rw [ofRat, facts, Facts.ofScalar]

theorem sign_ofRat (q : ℚ) : sign (ofRat q) = ofInt (Rounding.sign q) := by
  have by_facts : sign (ofRat q) = if (ofRat q).facts.isZero then zero
      else if (ofRat q).facts.isPositive then one
      else if (ofRat q).facts.isNegative then minusOne
      else .apply .sign (ofRat q) := rfl
  rw [by_facts, facts_ofRat, Rounding.sign]
  rcases lt_trichotomy q 0 with negative | rfl | positive
  · rw [if_pos negative, if_pos negative]
    rfl
  · rfl
  · rw [if_neg positive.not_gt, if_neg positive.ne', if_neg positive.not_gt, if_neg positive.ne']
    rfl

theorem abs_ofRat (q : ℚ) : abs (ofRat q) = ofRat |q| := by
  have by_size : abs (ofRat q) = .scalar (Scalar.abs (.exact q)) := rfl
  rw [by_size, Scalar.abs, ofRat]
  rcases lt_trichotomy q 0 with negative | rfl | positive
  · simp [Scalar.isZero, Scalar.value?, Scalar.isNegative, Scalar.neg, negative, negative.ne,
      abs_of_neg]
  · rfl
  · simp [Scalar.isZero, Scalar.value?, Scalar.isNegative, positive.le, positive.ne', abs_of_pos,
      positive]

theorem floor_ofRat (q : ℚ) : floor (ofRat q) = ofInt q.floor := rfl

theorem mul_ofInt (m n : ℤ) : mul (ofInt m) (ofInt n) = ofInt (m * n) :=
  congrArg (fun q => Term.scalar (.exact q)) (Rat.intCast_mul m n).symm

theorem add_ofRat (p q : ℚ) : add (ofRat p) (ofRat q) = ofRat (p + q) := rfl

theorem half_eq_ofRat : half = ofRat (1 / 2) := by
  rw [half, Rat.mkRat_eq_div]
  rfl

theorem neg_ofRat (q : ℚ) : neg (ofRat q) = ofRat (-q) := rfl

/-- Called with a rational number, the functions of the vocabulary give what rounding makes
of it, and they do so from its sign, its size and rounding down, as they do for every other
term. -/
structure RoundsExactly (q : ℚ) : Prop where
  trunc_eq : applyBuiltin .trunc (ofRat q) = .ok (ofInt (Rounding.trunc q))
  trunc_composed : mul (sign (ofRat q)) (floor (abs (ofRat q))) = ofInt (Rounding.trunc q)
  round_eq : applyBuiltin .round (ofRat q) = .ok (ofInt (Rounding.round q))
  round_composed :
    mul (sign (ofRat q)) (floor (add (abs (ofRat q)) half)) = ofInt (Rounding.round q)
  fract_eq : applyBuiltin .fract (ofRat q) = .ok (ofRat (Rounding.fract q))
  fract_composed : sub (ofRat q) (trunc (ofRat q)) = ofRat (Rounding.fract q)
  signum_eq : applyBuiltin .signum (ofRat q) = .ok (ofInt (Rounding.signum q))
  abs_eq : applyBuiltin .abs (ofRat q) = .ok (ofRat |q|)

theorem roundsExactly (q : ℚ) : RoundsExactly q where
  trunc_eq := rfl
  trunc_composed := by
    rw [sign_ofRat, abs_ofRat, floor_ofRat, mul_ofInt, Rounding.trunc, Rounding.magnitude_eq_abs]
  round_eq := rfl
  round_composed := by
    rw [sign_ofRat, abs_ofRat, half_eq_ofRat, add_ofRat, floor_ofRat, mul_ofInt, Rounding.round,
      Rounding.magnitude_eq_abs]
  fract_eq := rfl
  fract_composed := by
    have whole : trunc (ofRat q) = ofRat (Rounding.trunc q) := rfl
    rw [sub, whole, neg_ofRat, add_ofRat, Rounding.fract, sub_eq_add_neg]
  signum_eq := rfl
  abs_eq := congrArg Except.ok (abs_ofRat q)

end Term

namespace Rounding

/-- What the rounding functions make of every rational number.  The whole part is told by
its size and sign, the nearest integer by its distance and by what becomes of halves; the
fraction is what truncation takes away.  All three are odd, integers stay as they are, and
the signum, which is never zero, is the sign that the size lacks. -/
theorem rounds_rationals :
    (∀ q : ℚ, Term.RoundsExactly q) ∧
    (∀ (q : ℚ) (n : ℤ), n = trunc q ↔ IsWholePart q n) ∧
    (∀ q : ℚ, fract q = q - trunc q ∧ |fract q| < 1 ∧ 0 ≤ fract q * q) ∧
    (∀ (q : ℚ) (n : ℤ), n = round q ↔ IsNearest q n) ∧
    (∀ q : ℚ, trunc (-q) = -trunc q ∧ fract (-q) = -fract q ∧ round (-q) = -round q) ∧
    (∀ n : ℤ, trunc n = n ∧ round n = n) ∧
    (∀ q : ℚ, (signum q = 1 ∨ signum q = -1) ∧ q = signum q * |q|) ∧ signum 0 = 1 := by
  refine ⟨Term.roundsExactly, ?_, ?_, ?_, ?_, ?_, eq_signum_mul_abs, rfl⟩
  · intro q n
    constructor
    · rintro rfl
      exact isWholePart_trunc q
    · exact fun whole => whole.eq (isWholePart_trunc q)
  · exact fun q => ⟨rfl, fract_bounds q⟩
  · intro q n
    constructor
    · rintro rfl
      exact isNearest_round q
    · exact fun nearest => nearest.eq (isNearest_round q)
  · exact fun q => ⟨trunc_neg q, fract_neg q, round_neg q⟩
  · exact fun n => ⟨trunc_intCast n, round_intCast n⟩

/-- Halves go away from zero on both sides. -/
example : round (-5 / 2) = -3 ∧ round (5 / 2) = 3 ∧ round (-49 / 20) = -2 ∧
    trunc (-5 / 2) = -2 := by
  decide +kernel

end Rounding
end FormulaLine

import FormulaLine.Algebra.Function
import FormulaLine.Proofs.Names

namespace FormulaLine

/-!
# The functions of the vocabulary invent no names

A function of the vocabulary keeps to the names of its argument, as the algebra does.
Its tables hold constants only; a term that it takes apart, or leaves as it is written,
was there before.
-/

namespace Term

section Within

variable {P : List Char → Prop} {a b : Term}

theorem within_getD {found : Option Term} (held : ∀ b, found = some b → b.Within P)
    (missing : a.Within P) : (found.getD a).Within P := by
  cases found with
  | none => exact missing
  | some b => exact held b rfl

/-! ## Angles -/

namespace Angle

@[simp] theorem within_root (n : Nat) : (root n).Within P :=
  within_sqrt (within_ofInt n)

@[simp] theorem within_surd (a b : Rat) (n : Nat) : (surd a b n).Within P :=
  within_add (within_ofRat a) (within_scale _ (within_root n))

@[simp] theorem within_multiple (q : Rat) : (multiple q).Within P :=
  within_scale _ within_pi

theorem within_cosines : ∀ entry ∈ cosines, entry.2.Within P := by
  simp [cosines]

theorem within_tangents : ∀ entry ∈ tangents, entry.2.Within P := by
  simp [tangents]

theorem within_lookup {q : Rat} {table : List (Rat × Term)} {other : Term}
    (held : ∀ entry ∈ table, entry.2.Within P) (missing : other.Within P) :
    ((lookup q table).getD other).Within P := by
  refine within_getD ?_ missing
  intro b found
  rcases Option.map_eq_some_iff.mp found with ⟨entry, here, rfl⟩
  exact held entry (List.mem_of_find?_eq_some here)

@[simp] theorem within_cosAcute (q : Rat) : (cosAcute q).Within P :=
  within_lookup within_cosines ((within_apply _ _).mpr (within_multiple q))

@[simp] theorem within_sinAcute (q : Rat) : (sinAcute q).Within P :=
  within_lookup within_cosines ((within_apply _ _).mpr (within_multiple q))

@[simp] theorem within_cos (q : Rat) : (cos q).Within P :=
  within_ite (within_neg (within_cosAcute _)) (within_cosAcute _)

@[simp] theorem within_sin (q : Rat) : (sin q).Within P := by
  have acute : ∀ q, (if mkRat 1 2 < q then sinAcute (1 - q) else sinAcute q).Within P :=
    fun q => within_ite (within_sinAcute _) (within_sinAcute _)
  exact within_ite (within_neg (acute _)) (acute _)

@[simp] theorem within_tan (q : Rat) : (tan q).Within P := by
  have acute : ∀ q, ((lookup q tangents).getD (.apply .tan (multiple q))).Within P :=
    fun q => within_lookup within_tangents ((within_apply _ _).mpr (within_multiple q))
  exact within_ite within_complexInfinity (within_ite (within_neg (acute _)) (acute _))

theorem within_peel (held : a.Within P) : (peel a).2.Within P := by
  rw [peel]
  split
  · exact held
  · exact within_sub held (within_multiple _)

end Angle

/-! ## Multiples of the imaginary unit -/

theorem within_overImaginary? (held : a.Within P) (found : overImaginary? a = some b) :
    b.Within P := by
  unfold overImaginary? at found
  split at found
  · cases found
    exact within_one
  · rename_i factors
    split at found
    · cases found
      exact within_mulAll fun c occurs =>
        (within_product factors).mp held c (List.mem_filter.mp occurs).1
    · cases found
  · cases found

/-! ## Size and sign -/

theorem within_absFactor (held : a.Within P) : (absFactor a).Within P := by
  have size : (Term.apply .abs a).Within P := held
  unfold absFactor
  split
  · exact within_scalar _
  · exact within_infinity
  · exact within_one
  · apply within_ite within_zero
    apply within_ite held
    apply within_ite (within_neg held)
    split
    · exact within_ite within_one size
    · rename_i base exponent _ _ _ _
      rcases (within_power base exponent).mp held with ⟨heldBase, heldExponent⟩
      have ofBase : (Term.apply .abs base).Within P := heldBase
      apply within_ite
      · apply within_ite (within_pow ofBase heldExponent)
        exact within_ite (within_pow (within_neg heldBase) heldExponent) size
      · split
        · refine within_ite (within_inverse ?_) size
          exact (within_apply _ _).mpr (within_pow heldBase (within_ofInt _))
        · exact size
    · split
      · exact within_sqrt (within_ofRat _)
      · exact (within_apply _ _).mpr (within_ite (within_neg held) held)
    · exact size

theorem within_abs (held : a.Within P) : (abs a).Within P := by
  unfold abs
  split
  · rename_i factors
    have part := (within_product factors).mp held
    dsimp only
    generalize unknownEq : List.filterMap _ _ = unknown
    generalize knownEq : List.filterMap _ _ = known
    have heldUnknown : ∀ b ∈ unknown, b.Within P := by
      rw [← unknownEq]
      refine within_chosen part within_absFactor ?_
      intro b c d factor _ choice
      split at choice <;> cases choice
      exact factor
    have heldKnown : ∀ b ∈ known, b.Within P := by
      rw [← knownEq]
      refine within_chosen part within_absFactor ?_
      intro b c d _ size choice
      split at choice <;> cases choice
      exact size
    split
    · exact within_mulAll heldKnown
    · have single := within_absFactor (heldUnknown _ List.mem_cons_self)
      exact within_mulAll (List.forall_mem_cons.mpr ⟨single, heldKnown⟩)
    · have rest := (within_apply .abs _).mpr (within_mulAll heldUnknown)
      exact within_mulAll (List.forall_mem_cons.mpr ⟨rest, heldKnown⟩)
  · exact within_absFactor held

theorem within_signFactor (held : a.Within P) : (signFactor a).Within P := by
  unfold signFactor
  split
  · exact within_undefined
  · exact held
  · exact within_i
  · exact within_ite within_zero (within_ite within_one (within_ite within_minusOne held))

theorem within_sign (held : a.Within P) : (sign a).Within P := by
  unfold sign
  split
  · rename_i factors
    have part := (within_product factors).mp held
    dsimp only
    generalize unknownEq : List.filterMap _ _ = unknown
    generalize knownEq : List.filterMap _ _ = known
    have heldUnknown : ∀ b ∈ unknown, b.Within P := by
      rw [← unknownEq]
      refine within_chosen part within_signFactor ?_
      intro b c d factor _ choice
      split at choice <;> cases choice
      exact factor
    have heldKnown : ∀ b ∈ known, b.Within P := by
      rw [← knownEq]
      refine within_chosen part within_signFactor ?_
      intro b c d _ image choice
      split at choice <;> cases choice
      exact image
    split
    · exact within_mulAll heldKnown
    · have rest := within_signFactor (within_mulAll heldUnknown)
      exact within_mulAll (List.forall_mem_cons.mpr ⟨rest, heldKnown⟩)
  · exact within_signFactor held

/-! ## Rounding -/

theorem within_roundConstant? {direction : Direction}
    (rounded : roundConstant? direction a = some b) : b.Within P := by
  unfold roundConstant? at rounded
  split at rounded
  · cases rounded
    exact within_ofInt _
  · split at rounded
    · rcases Option.bind_eq_some_iff.mp rounded with ⟨re, -, rounded⟩
      rcases Option.bind_eq_some_iff.mp rounded with ⟨im, -, rounded⟩
      cases rounded
      exact within_add (within_ofInt _) (within_scale _ within_i)
    · cases rounded

theorem within_roundToward (direction : Direction) (held : a.Within P) :
    (roundToward direction a).Within P := by
  unfold roundToward
  split
  · exact within_ofInt _
  · exact within_ofInt _
  · exact within_scalar _
  · exact within_complexInfinity
  · apply within_ite held
    have side : (∀ b ∈ (a.summands.partition isIntegral).1, b.Within P) ∧
        ∀ b ∈ (a.summands.partition isIntegral).2, b.Within P :=
      ⟨fun b occurs => within_summands held b (List.mem_partition.mpr (.inl occurs)),
        fun b occurs => within_summands held b (List.mem_partition.mpr (.inr occurs))⟩
    have rest := within_addAll side.2
    dsimp only
    refine within_addAll (List.forall_mem_cons.mpr ⟨?_, side.1⟩)
    generalize addAll (a.summands.partition isIntegral).2 = rest at rest
    apply within_ite
    · exact within_getD (fun b rounded => within_roundConstant? rounded) rest
    · split
      · exact rest
      · exact rest
      · exact rest

@[simp] theorem within_floor (held : a.Within P) : (floor a).Within P :=
  within_roundToward downward held

@[simp] theorem within_ceiling (held : a.Within P) : (ceiling a).Within P :=
  within_roundToward upward held

theorem within_trunc (held : a.Within P) : (trunc a).Within P := by
  unfold trunc
  split
  · exact within_ofInt _
  · exact within_mul (within_sign held) (within_floor (within_abs held))

theorem within_round (held : a.Within P) : (round a).Within P := by
  unfold round
  split
  · exact within_ofInt _
  · exact within_mul (within_sign held)
      (within_floor (within_add (within_abs held) within_half))

theorem within_fract (held : a.Within P) : (fract a).Within P := by
  unfold fract
  split
  · exact within_ofRat _
  · exact within_sub held (within_trunc held)

theorem within_signum (held : a.Within P) (signed : signum a = .ok b) : b.Within P := by
  have rest := within_splitCoefficient held
  unfold signum at signed
  dsimp only at signed
  split at signed
  · cases signed
    exact within_ofInt _
  · cases signed
  · split at signed
    · cases signed
    · split at signed
      · cases signed
        exact within_one
      · split at signed <;> cases signed
        · exact within_minusOne
        · exact (within_apply _ _).mpr (within_ite rest (within_ite (within_neg rest) held))

/-! ## Circular and hyperbolic functions -/

section Parity

variable {f : Term → Term} (kept : ∀ {a : Term}, a.Within P → (f a).Within P)

include kept

theorem within_oddly (held : a.Within P) : (oddly f a).Within P :=
  within_ite (within_neg (kept (within_neg held))) (kept held)

theorem within_evenly (held : a.Within P) : (evenly f a).Within P :=
  within_ite (kept (within_neg held)) (kept held)

end Parity

@[simp] theorem within_complement (held : a.Within P) : (complement a).Within P :=
  within_sqrt (within_sub within_one (within_pow held within_two))

@[simp] theorem within_hypotenuse (held : a.Within P) : (hypotenuse a).Within P :=
  within_sqrt (within_add within_one (within_pow held within_two))

theorem within_sinReduced (held : a.Within P) : (sinReduced a).Within P := by
  unfold sinReduced
  split
  · exact Angle.within_sin _
  · rename_i imaginary
    exact within_mul within_i ((within_apply _ _).mpr (within_overImaginary? held imaginary))
  · split
    · exact held
    · exact within_complement held
    · exact within_div held (within_hypotenuse held)
    · exact held

theorem within_cosReduced (held : a.Within P) : (cosReduced a).Within P := by
  unfold cosReduced
  split
  · exact Angle.within_cos _
  · rename_i imaginary
    exact (within_apply _ _).mpr (within_overImaginary? held imaginary)
  · split
    · exact held
    · exact within_complement held
    · exact within_inverse (within_hypotenuse held)
    · exact held

theorem within_tanReduced (held : a.Within P) : (tanReduced a).Within P := by
  unfold tanReduced
  split
  · exact Angle.within_tan _
  · rename_i imaginary
    exact within_mul within_i ((within_apply _ _).mpr (within_overImaginary? held imaginary))
  · split
    · exact held
    · exact within_div held (within_complement held)
    · exact within_div (within_complement held) held
    · exact held

theorem within_roundedValue (f : Elementary) (b : Binary) : (roundedValue f b).Within P := by
  unfold roundedValue
  dsimp only
  split <;> simp

theorem within_atNumber (f : Elementary) {atZero : Term} (s : Scalar) (held : atZero.Within P) :
    (atNumber f atZero s).Within P := by
  unfold atNumber
  apply within_ite held
  split
  · exact within_roundedValue _ _
  · exact within_undefined
  · simp

/-- An odd function at a number. -/
theorem within_oddAtNumber {condition : Prop} [Decidable condition] (f : Elementary) (q : Rat)
    (s : Scalar) :
    (if condition then neg (.apply f (ofRat q)) else atNumber f zero s).Within P :=
  within_ite (within_neg ((within_apply f _).mpr (within_ofRat q)))
    (within_atNumber f s within_zero)

@[simp] theorem within_sin (held : a.Within P) : (sin a).Within P := by
  unfold sin
  split
  · exact within_oddAtNumber _ _ _
  · exact within_atNumber _ _ within_zero
  · exact within_undefined
  · apply within_oddly _ held
    intro b held
    have rest := Angle.within_peel held
    apply within_ite (within_sinReduced held)
    exact within_add
      (within_mul (Angle.within_sin _) (within_evenly within_cosReduced rest))
      (within_mul (Angle.within_cos _) (within_oddly within_sinReduced rest))

@[simp] theorem within_cos (held : a.Within P) : (cos a).Within P := by
  unfold cos
  split
  · exact within_atNumber _ _ within_one
  · exact within_atNumber _ _ within_one
  · exact within_undefined
  · apply within_evenly _ held
    intro b held
    have rest := Angle.within_peel held
    apply within_ite (within_cosReduced held)
    exact within_sub
      (within_mul (Angle.within_cos _) (within_evenly within_cosReduced rest))
      (within_mul (Angle.within_sin _) (within_oddly within_sinReduced rest))

@[simp] theorem within_tan (held : a.Within P) : (tan a).Within P := by
  unfold tan
  split
  · exact within_oddAtNumber _ _ _
  · exact within_atNumber _ _ within_zero
  · exact within_undefined
  · apply within_oddly _ held
    intro b held
    have rest := within_oddly within_tanReduced (Angle.within_peel held)
    apply within_ite (within_tanReduced held)
    exact within_ite rest (within_neg (within_inverse rest))

@[simp] theorem within_sinh (held : a.Within P) : (sinh a).Within P := by
  unfold sinh
  split
  · exact within_scalar _
  · exact within_oddAtNumber _ _ _
  · exact within_atNumber _ _ within_zero
  · exact within_undefined
  · apply within_oddly _ held
    intro b held
    split
    · rename_i imaginary
      exact within_mul within_i (within_sin (within_overImaginary? held imaginary))
    · exact held

@[simp] theorem within_cosh (held : a.Within P) : (cosh a).Within P := by
  unfold cosh
  split
  · exact within_infinity
  · exact within_atNumber _ _ within_one
  · exact within_atNumber _ _ within_one
  · exact within_undefined
  · apply within_evenly _ held
    intro b held
    split
    · rename_i imaginary
      exact within_cos (within_overImaginary? held imaginary)
    · exact held

@[simp] theorem within_tanh (held : a.Within P) : (tanh a).Within P := by
  unfold tanh
  split
  · exact within_ite within_minusOne within_one
  · exact within_oddAtNumber _ _ _
  · exact within_atNumber _ _ within_zero
  · exact within_undefined
  · apply within_oddly _ held
    intro b held
    split
    · rename_i imaginary
      exact within_mul within_i (within_tan (within_overImaginary? held imaginary))
    · exact held

/-! ## Inverse circular functions -/

theorem within_reduceBy? {period : Term} (heldPeriod : period.Within P) (held : a.Within P)
    (reduced : reduceBy? period a = some b) : b.Within P := by
  unfold reduceBy? at reduced
  split at reduced
  · split at reduced
    · cases reduced
      exact within_zero
    · cases reduced
      exact within_sub held (within_scale _ heldPeriod)
    · cases reduced
  · cases reduced

theorem within_foldSine? (held : a.Within P) (folded : foldSine? a = some b) : b.Within P := by
  rcases Option.bind_eq_some_iff.mp folded with ⟨c, reduced, folded⟩
  have first := within_reduceBy? (Angle.within_multiple 2) held reduced
  cases folded
  have turned : ∀ (condition : Prop) [Decidable condition] {turn angle : Term}, turn.Within P →
      angle.Within P → (if condition then sub turn angle else angle).Within P :=
    fun _ _ _ _ heldTurn heldAngle => within_ite (within_sub heldTurn heldAngle) heldAngle
  exact turned _ (within_neg within_pi) (turned _ within_pi (turned _ within_pi first))

theorem within_foldCosine? (held : a.Within P) (folded : foldCosine? a = some b) : b.Within P := by
  rcases Option.bind_eq_some_iff.mp folded with ⟨c, reduced, folded⟩
  have first := within_reduceBy? (Angle.within_multiple 2) held reduced
  cases folded
  exact within_ite (within_sub (Angle.within_multiple _) first) first

theorem within_foldTangent? (held : a.Within P) (folded : foldTangent? a = some b) :
    b.Within P := by
  rcases Option.bind_eq_some_iff.mp folded with ⟨c, reduced, folded⟩
  have first := within_reduceBy? within_pi held reduced
  cases folded
  exact within_ite (within_sub first within_pi) first

theorem within_roundedInverse (f : Elementary) (b : Binary) : (roundedInverse f b).Within P := by
  unfold roundedInverse
  apply within_ite
  · simp
  · apply within_ite
    · dsimp only
      split
      · exact within_scalar _
      · split <;> simp
    · exact within_roundedValue _ _

@[simp] theorem within_asin (held : a.Within P) : (asin a).Within P := by
  unfold asin
  split
  · exact within_ite within_zero (within_roundedInverse _ _)
  · exact within_undefined
  · exact within_complexInfinity
  · split
    · exact Angle.within_multiple _
    · apply within_oddly _ held
      intro b held
      split
      · have inner := (within_apply _ _).mp held
        exact within_getD (fun c folded => within_foldSine? inner folded) held
      · split
        · rename_i folded
          have angle := within_foldCosine? ((within_apply _ _).mp held) folded
          exact within_sub (Angle.within_multiple _) angle
        · exact held
      · exact held

@[simp] theorem within_acos (held : a.Within P) : (acos a).Within P := by
  unfold acos
  split
  · exact within_ite (Angle.within_multiple _) (within_roundedInverse _ _)
  · exact within_undefined
  · exact within_complexInfinity
  · split
    · exact Angle.within_multiple _
    · split
      · have inner := (within_apply _ _).mp held
        exact within_getD (fun c folded => within_foldCosine? inner folded) held
      · split
        · rename_i folded
          have angle := within_foldSine? ((within_apply _ _).mp held) folded
          exact within_sub (Angle.within_multiple _) angle
        · exact held
      · exact held

@[simp] theorem within_atan (held : a.Within P) : (atan a).Within P := by
  unfold atan
  split
  · exact within_ite within_zero (within_roundedValue _ _)
  · exact Angle.within_multiple _
  · exact within_undefined
  · split
    · exact Angle.within_multiple _
    · exact Angle.within_multiple _
    · apply within_oddly _ held
      intro b held
      split
      · have inner := (within_apply _ _).mp held
        exact within_getD (fun c folded => within_foldTangent? inner folded) held
      · exact held

/-! ## Logarithms -/

@[simp] theorem within_halfTurn : halfTurn.Within P :=
  within_mul within_pi within_i

theorem within_logPositive (held : a.Within P) : (logPositive a).Within P := by
  have log : (Term.apply .log a).Within P := held
  unfold logPositive
  split
  · exact within_one
  · exact within_ite (within_neg ((within_apply _ _).mpr (within_ofRat _))) log
  · split
    · exact within_scalar _
    · exact log
  · exact within_ite held.2 log
  · split
    · exact within_scale _ within_halfTurn
    · exact within_add (within_scale _ within_halfTurn) ((within_apply _ _).mpr (within_ofRat _))
    · exact log

@[simp] theorem within_log (held : a.Within P) : (log a).Within P := by
  unfold log
  split
  · exact within_infinity
  · exact within_undefined
  · exact within_complexInfinity
  · apply within_ite within_zero
    apply within_ite within_complexInfinity
    apply within_ite
    · exact within_add within_halfTurn (within_logPositive (within_neg held))
    · exact within_logPositive held

theorem within_logBase (base : Nat) (held : a.Within P) : (logBase base a).Within P := by
  have quotient : ∀ {b : Term}, b.Within P → (div (log b) (log (ofInt base))).Within P :=
    fun heldArgument => within_div (within_log heldArgument) (within_log (within_ofInt _))
  unfold logBase
  dsimp only
  split
  · apply within_ite (quotient held)
    apply within_ite (quotient held)
    exact within_add (within_ofInt _) (quotient (within_ofRat _))
  · exact quotient held

/-- A function of the vocabulary keeps to the names of its argument. -/
theorem within_applyBuiltin {f : Builtin} (held : a.Within P) (applied : applyBuiltin f a = .ok b) :
    b.Within P := by
  cases f with
  | signum => exact within_signum held applied
  | _ =>
    cases applied
    first
      | exact within_abs held
      | exact within_round held
      | exact within_trunc held
      | exact within_fract held
      | exact within_logBase _ held
      | simp [held]

end Within

end Term
end FormulaLine

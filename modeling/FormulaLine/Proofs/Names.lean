import FormulaLine.Algebra.Product
import Mathlib.Data.Rat.Defs

namespace FormulaLine

/-!
# The algebra invents no names

A term names symbols and calls functions.  Whatever the names of the operands have
in common, the names of a sum, a product or a power have in common as well: terms are
collected, reordered, scaled and dropped, and the numbers, constants and functions
that are put in carry no names.

Products and powers call each other with a fuel that goes down at each call; the
proof is one induction on the fuel, as their definition is one recursion.
-/

namespace Term

mutual

/-- Every symbol of the term, and every function that it calls, has the property. -/
def Within (P : List Char → Prop) : Term → Prop
  | .symbol name => P name
  | .call name arguments => P name ∧ AllWithin P arguments
  | .sum terms => AllWithin P terms
  | .product factors => AllWithin P factors
  | .power base exponent => Within P base ∧ Within P exponent
  | .apply _ argument => Within P argument
  | _ => True

def AllWithin (P : List Char → Prop) : List Term → Prop
  | [] => True
  | a :: rest => Within P a ∧ AllWithin P rest

end

section Within

variable {P : List Char → Prop}

theorem allWithin_iff {terms : List Term} : AllWithin P terms ↔ ∀ a ∈ terms, a.Within P := by
  induction terms with
  | nil => simp [AllWithin]
  | cons a rest ih => simp [AllWithin, ih]

@[simp] theorem within_scalar (s : Scalar) : (scalar s).Within P := trivial

@[simp] theorem within_complexInfinity : complexInfinity.Within P := trivial

@[simp] theorem within_constant (c : Constant) : (constant c).Within P := trivial

@[simp] theorem within_foreign (name : List Char) : (foreign name).Within P := trivial

@[simp] theorem within_symbol (name : List Char) : (symbol name).Within P ↔ P name := Iff.rfl

@[simp] theorem within_sum (terms : List Term) :
    (sum terms).Within P ↔ ∀ a ∈ terms, a.Within P :=
  allWithin_iff

@[simp] theorem within_product (factors : List Term) :
    (product factors).Within P ↔ ∀ a ∈ factors, a.Within P :=
  allWithin_iff

@[simp] theorem within_power (base exponent : Term) :
    (power base exponent).Within P ↔ base.Within P ∧ exponent.Within P :=
  Iff.rfl

@[simp] theorem within_apply (f : Elementary) (argument : Term) :
    (apply f argument).Within P ↔ argument.Within P :=
  Iff.rfl

@[simp] theorem within_call (name : List Char) (arguments : List Term) :
    (call name arguments).Within P ↔ P name ∧ ∀ a ∈ arguments, a.Within P :=
  and_congr_right fun _ => allWithin_iff

@[simp] theorem within_ofRat (q : Rat) : (ofRat q).Within P := trivial

@[simp] theorem within_ofInt (n : Int) : (ofInt n).Within P := trivial

@[simp] theorem within_zero : zero.Within P := trivial

@[simp] theorem within_one : one.Within P := trivial

@[simp] theorem within_two : two.Within P := trivial

@[simp] theorem within_minusOne : minusOne.Within P := trivial

@[simp] theorem within_half : half.Within P := trivial

@[simp] theorem within_undefined : undefined.Within P := trivial

@[simp] theorem within_infinity : infinity.Within P := trivial

@[simp] theorem within_pi : pi.Within P := trivial

@[simp] theorem within_e : e.Within P := trivial

@[simp] theorem within_i : i.Within P := trivial

theorem within_ite {condition : Prop} [Decidable condition] {a b : Term} (yes : a.Within P)
    (no : b.Within P) : (if condition then a else b).Within P := by
  split
  · exact yes
  · exact no

/-! ## Parts of terms -/

variable {a b : Term} {terms : List Term}

mutual

theorem within_of_mem_parts : ∀ {a b : Term}, a.Within P → b ∈ a.parts → b.Within P
  | .sum terms, b, held, part => by
    rcases List.mem_cons.mp part with rfl | part
    · exact held
    · exact within_of_mem_partsOf ((within_sum terms).mp held) part
  | .product factors, b, held, part => by
    rcases List.mem_cons.mp part with rfl | part
    · exact held
    · exact within_of_mem_partsOf ((within_product factors).mp held) part
  | .power base exponent, b, held, part => by
    rcases List.mem_cons.mp part with rfl | part
    · exact held
    · rcases List.mem_append.mp part with part | part
      · exact within_of_mem_parts held.1 part
      · exact within_of_mem_parts held.2 part
  | .apply f argument, b, held, part => by
    rcases List.mem_cons.mp part with rfl | part
    · exact held
    · exact within_of_mem_parts ((within_apply f argument).mp held) part
  | .call name arguments, b, held, part => by
    rcases List.mem_cons.mp part with rfl | part
    · exact held
    · exact within_of_mem_partsOf ((within_call name arguments).mp held).2 part
  | .scalar _, b, held, part => by
    rw [List.mem_singleton.mp part]
    exact held
  | .complexInfinity, b, held, part => by
    rw [List.mem_singleton.mp part]
    exact held
  | .constant _, b, held, part => by
    rw [List.mem_singleton.mp part]
    exact held
  | .symbol _, b, held, part => by
    rw [List.mem_singleton.mp part]
    exact held
  | .foreign _, b, held, part => by
    rw [List.mem_singleton.mp part]
    exact held

theorem within_of_mem_partsOf :
    ∀ {terms : List Term} {b : Term}, (∀ a ∈ terms, a.Within P) → b ∈ partsOf terms → b.Within P
  | [], b, held, part => by cases part
  | a :: rest, b, held, part => by
    rcases List.mem_append.mp part with part | part
    · exact within_of_mem_parts (held a List.mem_cons_self) part
    · exact within_of_mem_partsOf (fun c occurs => held c (List.mem_cons_of_mem a occurs)) part

end

theorem within_splitCoefficient (held : a.Within P) : (splitCoefficient a).2.Within P := by
  unfold splitCoefficient
  split <;> simp_all

theorem within_summands (held : a.Within P) : ∀ b ∈ a.summands, b.Within P := by
  unfold summands
  split <;> simp_all

theorem within_factors (held : a.Within P) : ∀ b ∈ a.factors, b.Within P := by
  unfold factors
  split <;> simp_all

theorem within_splitPower (held : a.Within P) :
    (splitPower a).1.Within P ∧ (splitPower a).2.Within P := by
  unfold splitPower
  split <;> simp_all

theorem within_productOf (s : Scalar) (held : ∀ a ∈ terms, a.Within P) :
    (productOf s terms).Within P := by
  unfold productOf
  split <;> simp_all

theorem within_sumOf (held : ∀ a ∈ terms, a.Within P) : (sumOf terms).Within P := by
  unfold sumOf
  split <;> simp_all

theorem mem_insert (a b : Term) (terms : List Term) : b ∈ insert a terms ↔ b = a ∨ b ∈ terms := by
  induction terms with
  | nil => simp [insert]
  | cons c rest ih =>
    rw [insert]
    split <;> simp [ih, or_left_comm]

theorem mem_sort (b : Term) (terms : List Term) : b ∈ sort terms ↔ b ∈ terms := by
  induction terms with
  | nil => rfl
  | cons a rest ih => rw [sort, mem_insert, ih, List.mem_cons]

/-! ## Sums -/

theorem mem_insertSummand (a b : Term) (terms : List Term) :
    b ∈ insertSummand a terms ↔ b = a ∨ b ∈ terms := by
  induction terms with
  | nil => simp [insertSummand]
  | cons c rest ih =>
    rw [insertSummand]
    split <;> simp [ih, or_left_comm]

theorem mem_sortSummands (b : Term) (terms : List Term) : b ∈ sortSummands terms ↔ b ∈ terms := by
  induction terms with
  | nil => rfl
  | cons a rest ih => rw [sortSummands, mem_insertSummand, ih, List.mem_cons]

theorem within_scaleSummand (s : Scalar) (held : a.Within P) : (scaleSummand s a).Within P := by
  have rest := within_splitCoefficient held
  unfold scaleSummand
  split
  · exact within_scalar _
  · rename_i split
    rw [split] at rest
    exact within_productOf _ ((within_product _).mp rest)
  · rename_i split
    rw [split] at rest
    exact within_productOf _ (by simpa using rest)

@[simp] theorem within_scale (s : Scalar) (held : a.Within P) : (scale s a).Within P := by
  have rest := within_splitCoefficient held
  unfold scale
  split
  · exact held
  · split
    · exact within_undefined
    · exact within_scalar _
    · split <;> simp
    · split
      · split <;> simp
      · split
        · split
          · rename_i split
            rw [split] at rest
            apply within_sumOf
            intro b occurs
            rcases List.mem_map.mp occurs with ⟨c, part, rfl⟩
            exact within_scaleSummand _ ((within_sum _).mp rest c part)
          · exact within_scaleSummand _ held
        · exact within_scaleSummand _ held

@[simp] theorem within_neg (held : a.Within P) : (neg a).Within P := by
  unfold neg
  split
  · exact within_scalar _
  · exact within_scale _ held

namespace SumParts

/-- Every term that is added up has the property. -/
def Within (P : List Char → Prop) (parts : SumParts) : Prop :=
  ∀ entry ∈ parts.terms, entry.1.Within P

theorem within_addTerm {a : Term} {s : Scalar} {terms : List (Term × Scalar)} (held : a.Within P)
    (before : ∀ entry ∈ terms, entry.1.Within P) :
    ∀ entry ∈ addTerm a s terms, entry.1.Within P := by
  induction terms with
  | nil => simpa [addTerm] using held
  | cons first rest ih =>
    rcases first with ⟨b, t⟩
    rcases List.forall_mem_cons.mp before with ⟨first, others⟩
    rw [addTerm]
    split
    · exact List.forall_mem_cons.mpr ⟨first, others⟩
    · exact List.forall_mem_cons.mpr ⟨first, ih others⟩

theorem within_add {parts : SumParts} {a : Term} (before : parts.Within P) (held : a.Within P) :
    (parts.add a).Within P := by
  have rest := within_splitCoefficient held
  unfold add
  split
  · split
    · split <;> exact before
    · exact before
  · split <;> exact before
  · exact within_addTerm rest before

theorem within_total {parts : SumParts} (before : parts.Within P) : parts.total.Within P := by
  have scaled : ∀ b ∈ (parts.terms.filter fun entry => !entry.2.isZero).map fun entry =>
      if entry.2.isOne then entry.1 else scaleSummand entry.2 entry.1, b.Within P := by
    intro b occurs
    rcases List.mem_map.mp occurs with ⟨entry, kept, rfl⟩
    have held := before entry (List.mem_filter.mp kept).1
    exact within_ite held (within_scaleSummand _ held)
  have kept : ∀ (condition : Term → Bool), ∀ b ∈ sortSummands (List.filter condition
      ((parts.terms.filter fun entry => !entry.2.isZero).map fun entry =>
        if entry.2.isOne then entry.1 else scaleSummand entry.2 entry.1)), b.Within P :=
    fun condition b occurs => scaled b (List.mem_filter.mp ((mem_sortSummands b _).mp occurs)).1
  rw [total.eq_def]
  split
  · exact within_undefined
  · apply within_ite within_undefined
    apply within_ite
    · exact within_sumOf (List.forall_mem_cons.mpr ⟨within_complexInfinity, kept _⟩)
    · apply within_ite
      · exact within_sumOf (kept _)
      · exact within_sumOf (List.forall_mem_cons.mpr ⟨within_scalar _, kept _⟩)

theorem within_foldl_add {parts : SumParts} {terms : List Term} (before : parts.Within P)
    (held : ∀ a ∈ terms, a.Within P) : (terms.foldl add parts).Within P :=
  List.foldlRecOn terms add before fun _ before a occurs => within_add before (held a occurs)

end SumParts

theorem within_flatMap {pieces : Term → List Term} (held : ∀ a ∈ terms, a.Within P)
    (cut : ∀ {a : Term}, a.Within P → ∀ b ∈ pieces a, b.Within P) :
    ∀ b ∈ terms.flatMap pieces, b.Within P := by
  intro b occurs
  rcases List.mem_flatMap.mp occurs with ⟨a, part, occurs⟩
  exact cut (held a part) b occurs

theorem within_addAll (held : ∀ a ∈ terms, a.Within P) : (addAll terms).Within P :=
  SumParts.within_total
    (SumParts.within_foldl_add (by simp [SumParts.Within]) (within_flatMap held within_summands))

@[simp] theorem within_add (left : a.Within P) (right : b.Within P) : (add a b).Within P := by
  unfold add
  split
  · exact within_scalar _
  · exact within_addAll (by simp [left, right])

@[simp] theorem within_sub (left : a.Within P) (right : b.Within P) : (sub a b).Within P :=
  within_add left (within_neg right)

/-! ## Products of numbers and collected factors -/

theorem within_phaseFactor (phase : Rat) : ∀ a ∈ phaseFactor phase, a.Within P := by
  unfold phaseFactor
  split
  · simp
  · split <;> simp

theorem within_readPower (held : a.Within P) :
    (readPower a).1.Within P ∧ (readPower a).2.2.Within P := by
  rcases within_splitPower held with ⟨base, exponent⟩
  have rest := within_splitCoefficient exponent
  unfold readPower
  dsimp only
  split
  · split
    · exact ⟨within_ofRat _, rest⟩
    · exact ⟨base, rest⟩
  · exact ⟨base, rest⟩

namespace PowerEntry

/-- The base and the exponent of a collected factor have the property. -/
def Within (P : List Char → Prop) (entry : PowerEntry) : Prop :=
  entry.base.Within P ∧ entry.rest.Within P

end PowerEntry

namespace ProductParts

/-- Every factor that is multiplied has the property. -/
def Within (P : List Char → Prop) (parts : ProductParts) : Prop :=
  ∀ entry ∈ parts.powers, entry.Within P

theorem within_addPower {base rest : Term} {s : Scalar} {entries : List PowerEntry}
    (heldBase : base.Within P) (heldRest : rest.Within P)
    (before : ∀ entry ∈ entries, entry.Within P) :
    ∀ entry ∈ addPower base s rest entries, entry.Within P := by
  induction entries with
  | nil => simpa [addPower] using ⟨heldBase, heldRest⟩
  | cons first others ih =>
    rcases List.forall_mem_cons.mp before with ⟨heldFirst, heldOthers⟩
    rw [addPower]
    split
    · exact List.forall_mem_cons.mpr ⟨⟨heldBase, heldRest⟩, heldOthers⟩
    · exact List.forall_mem_cons.mpr ⟨heldFirst, ih heldOthers⟩

/-- A number that is multiplied into a base leaves a number there. -/
theorem within_mergeNumber {s : Scalar} {exponent : Term} {alone : PowerEntry}
    {entries : List PowerEntry} (heldAlone : alone.Within P)
    (before : ∀ entry ∈ entries, entry.Within P) :
    ∀ entry ∈ mergeNumber s exponent alone entries, entry.Within P := by
  induction entries with
  | nil => simpa [mergeNumber] using heldAlone
  | cons first others ih =>
    rcases List.forall_mem_cons.mp before with ⟨heldFirst, heldOthers⟩
    rw [mergeNumber]
    split
    · split
      · exact List.forall_mem_cons.mpr ⟨⟨within_scalar _, heldFirst.2⟩, heldOthers⟩
      · exact List.forall_mem_cons.mpr ⟨heldFirst, ih heldOthers⟩
    · exact List.forall_mem_cons.mpr ⟨heldFirst, ih heldOthers⟩

theorem within_mergeNumbers {entries : List PowerEntry}
    (before : ∀ entry ∈ entries, entry.Within P) :
    ∀ entry ∈ mergeNumbers entries, entry.Within P := by
  induction entries with
  | nil => exact before
  | cons first others ih =>
    rcases List.forall_mem_cons.mp before with ⟨heldFirst, heldOthers⟩
    rw [mergeNumbers]
    split
    · exact within_mergeNumber heldFirst (ih heldOthers)
    · exact List.forall_mem_cons.mpr ⟨heldFirst, ih heldOthers⟩

theorem within_mul {parts : ProductParts} {a : Term} (before : parts.Within P) (held : a.Within P) :
    (parts.mul a).Within P := by
  rcases within_readPower held with ⟨base, rest⟩
  unfold mul
  split
  · split
    · split <;> exact before
    · exact before
  · split <;> exact before
  · exact before
  · split
    · exact before
    · exact within_addPower base rest before

theorem within_foldl_mul {parts : ProductParts} {factors : List Term} (before : parts.Within P)
    (held : ∀ a ∈ factors, a.Within P) : (factors.foldl mul parts).Within P :=
  List.foldlRecOn factors mul before fun _ before a occurs => within_mul before (held a occurs)

theorem mem_of_mem_absorb {negative : Bool} {factors : List Term} {a : Term}
    (kept : a ∈ (absorb negative factors).2) : a ∈ factors := by
  induction factors generalizing negative with
  | nil => cases kept
  | cons b rest ih =>
    rw [absorb] at kept
    dsimp only at kept
    split at kept
    · exact List.mem_cons_of_mem b (ih kept)
    · split at kept
      · exact List.mem_cons_of_mem b (ih kept)
      · rcases List.mem_cons.mp kept with rfl | kept
        · exact List.mem_cons_self
        · exact List.mem_cons_of_mem b (ih kept)

theorem within_finish {number : Scalar} {infinite : Bool} {phase : Rat} {factors : List Term}
    (held : ∀ a ∈ factors, a.Within P) : (finish number infinite phase factors).Within P := by
  have all : ∀ a ∈ phaseFactor (splitPhase phase).2 ++ factors, a.Within P :=
    List.forall_mem_append.mpr ⟨within_phaseFactor _, held⟩
  unfold finish
  dsimp only
  generalize phaseFactor (splitPhase phase).2 ++ factors = factors at all
  apply within_ite within_undefined
  apply within_ite
  · split
    · exact within_complexInfinity
    · refine (within_product _).mpr (List.forall_mem_cons.mpr ⟨within_complexInfinity, ?_⟩)
      exact fun a occurs => all a (List.mem_filter.mp ((mem_sort a _).mp occurs)).1
  · split
    · exact within_productOf _ fun a occurs => all a (mem_of_mem_absorb ((mem_sort a _).mp occurs))
    · apply within_ite
      · exact within_ite within_undefined (within_scalar _)
      · split
        · exact within_scale _ (all _ (by simp))
        · exact within_productOf _ fun a occurs => all a ((mem_sort a _).mp occurs)

end ProductParts

/-! ## Powers of numbers -/

@[simp] theorem within_ratPower (base exponent : Rat) : (ratPower base exponent).Within P := by
  unfold ratPower
  apply within_ite
  · simp
  · apply within_ite
    · simp
    · apply ProductParts.within_finish
      intro a occurs
      rcases List.mem_map.mp occurs with ⟨root, -, rfl⟩
      simp

@[simp] theorem within_binaryPower (base : Binary) (exponent : Scalar) :
    (binaryPower base exponent).Within P := by
  have finished : ∀ (s : Scalar) (q : Rat), (ProductParts.finish s false q []).Within P :=
    fun s q => ProductParts.within_finish (by simp)
  unfold binaryPower
  dsimp only
  repeat' split
  all_goals first
    | exact finished _ _
    | simp

@[simp] theorem within_infinitePower (base : Rat) (negative : Bool) :
    (infinitePower base negative).Within P := by
  unfold infinitePower
  repeat' first | exact trivial | apply within_ite

theorem within_zeroPower (held : a.Within P) : (zeroPower a).Within P := by
  have rest := within_splitCoefficient held
  unfold zeroPower
  dsimp only
  repeat' apply within_ite
  all_goals simp [rest]

theorem within_scalarPower (s : Scalar) (held : a.Within P) : (scalarPower s a).Within P := by
  have zero := within_zeroPower held
  unfold scalarPower
  dsimp only
  repeat' split
  all_goals first
    | exact zero
    | simp [held]

theorem within_complexInfinityPower (held : a.Within P) : (complexInfinityPower a).Within P := by
  unfold complexInfinityPower
  split
  · repeat' first | exact trivial | apply within_ite
  · simp [held]

@[simp] theorem within_ofComplexParts (re im : Rat) : (ofComplexParts re im).Within P := by
  simp [ofComplexParts]

theorem mem_of_mem_splitInverseLog? {base exponent : Term} {others : List Term}
    (split : splitInverseLog? base exponent = some others) :
    ∀ a ∈ others, a ∈ exponent.factors := by
  rw [splitInverseLog?] at split
  dsimp only at split
  split at split
  · cases split
    exact fun a kept => (List.mem_filter.mp kept).1
  · cases split

theorem within_separable {factors : List Term} (held : ∀ a ∈ factors, a.Within P) :
    (∀ a ∈ (separable factors).1, a.Within P) ∧ ∀ a ∈ (separable factors).2.2, a.Within P := by
  induction factors with
  | nil => exact ⟨held, held⟩
  | cons a rest ih =>
    rcases List.forall_mem_cons.mp held with ⟨first, others⟩
    rcases ih others with ⟨apart, kept⟩
    rw [separable]
    dsimp only
    split
    · exact ⟨List.forall_mem_cons.mpr ⟨first, apart⟩, kept⟩
    · split
      · exact ⟨List.forall_mem_cons.mpr ⟨within_neg first, apart⟩, kept⟩
      · exact ⟨apart, List.forall_mem_cons.mpr ⟨first, kept⟩⟩

/-- The factors of a product that are no sure signs, with the sign of the others. -/
theorem within_signed {factors : List Term} (held : ∀ a ∈ factors, a.Within P) :
    ∀ a ∈ (if (separable factors).2.1 then [minusOne] else []) ++ (separable factors).2.2,
      a.Within P := by
  refine List.forall_mem_append.mpr ⟨?_, (within_separable held).2⟩
  split <;> simp

/-- Terms that are chosen from terms paired with their images. -/
theorem within_chosen {terms : List Term} {g : Term → Term} {f : Term × Term → Option Term}
    (held : ∀ b ∈ terms, b.Within P) (kept : ∀ {b : Term}, b.Within P → (g b).Within P)
    (chosen : ∀ b c d, b.Within P → c.Within P → f (b, c) = some d → d.Within P) :
    ∀ d ∈ (terms.map fun b => (b, g b)).filterMap f, d.Within P := by
  intro d occurs
  rcases List.mem_filterMap.mp occurs with ⟨entry, part, choice⟩
  rcases List.mem_map.mp part with ⟨b, here, rfl⟩
  exact chosen b (g b) d (held b here) (kept (held b here)) choice

/-! ## Products and powers of terms -/

/-- Products and powers have the property, as long as the fuel lasts. -/
structure Keeps (P : List Char → Prop) (fuel : Nat) : Prop where
  mul : ∀ {terms}, (∀ a ∈ terms, a.Within P) → (mulWithin fuel terms).Within P
  exp : ∀ {exponent}, exponent.Within P → (expWithin fuel exponent).Within P
  power : ∀ {base exponent}, base.Within P → exponent.Within P →
    (powerWithin fuel base exponent).Within P

theorem keeps_zero : Keeps P 0 where
  mul held := by simpa [mulWithin] using held
  exp held := by simpa [expWithin] using held
  power base exponent := by simpa [powerWithin] using ⟨base, exponent⟩

namespace Keeps

variable {fuel : Nat} (keeps : Keeps P fuel)

include keeps

theorem mulWithin_succ (held : ∀ a ∈ terms, a.Within P) :
    (mulWithin (fuel + 1) terms).Within P := by
  have collected : ProductParts.Within P ((terms.flatMap factors).foldl ProductParts.mul {}) :=
    ProductParts.within_foldl_mul (by simp [ProductParts.Within])
      (within_flatMap held within_factors)
  rw [mulWithin]
  generalize (terms.flatMap factors).foldl ProductParts.mul {} = parts at collected
  have merged := ProductParts.within_mergeNumbers collected
  have settled : ∀ a ∈ (ProductParts.mergeNumbers parts.powers).map fun entry =>
      if entry.collected then powerWithin fuel entry.base entry.exponent
      else if same entry.exponent one then entry.base
      else .power entry.base entry.exponent, a.Within P := by
    intro a occurs
    rcases List.mem_map.mp occurs with ⟨entry, part, rfl⟩
    rcases merged entry part with ⟨base, rest⟩
    have exponent : entry.exponent.Within P := within_scale entry.number rest
    apply within_ite (keeps.power base exponent)
    exact within_ite base ((within_power _ _).mpr ⟨base, exponent⟩)
  dsimp only
  apply within_ite
  · exact ProductParts.within_finish fun a occurs => settled a (List.mem_filter.mp occurs).1
  · apply keeps.mul
    have infinite : ∀ a ∈ if parts.infinite then [complexInfinity] else [], a.Within P := by
      split <;> simp
    refine List.forall_mem_cons.mpr ⟨within_scalar _, List.forall_mem_append.mpr ⟨?_, settled⟩⟩
    exact List.forall_mem_append.mpr ⟨infinite, within_phaseFactor _⟩

theorem expWithin_succ {exponent : Term} (held : exponent.Within P) :
    (expWithin (fuel + 1) exponent).Within P := by
  have unevaluated : (Term.power e exponent).Within P := (within_power _ _).mpr ⟨within_e, held⟩
  rw [expWithin.eq_def]
  dsimp only
  split
  · apply within_ite within_one
    split
    · exact within_scalar _
    · exact unevaluated
  · exact within_ite within_zero within_infinity
  · exact held
  · rename_i terms
    have chosen : ∀ {f : Term × Term → Option Term},
        (∀ b c d, b.Within P → c.Within P → f (b, c) = some d → d.Within P) →
        ∀ d ∈ (terms.map fun a => (a, powerWithin fuel e a)).filterMap f, d.Within P :=
      within_chosen ((within_sum terms).mp held) (keeps.power within_e)
    generalize collected : addAll _ = rest
    have heldRest : rest.Within P := by
      rw [← collected]
      refine within_addAll (chosen ?_)
      intro b c d heldTerm heldValue choice
      dsimp only at choice
      split at choice <;> cases choice
      · exact heldValue.2
      · exact heldTerm
    have power := (within_power _ _).mpr ⟨within_e, heldRest⟩
    apply within_ite power
    apply keeps.mul
    refine List.forall_mem_append.mpr ⟨chosen ?_, ?_⟩
    · intro b c d heldTerm heldValue choice
      split at choice <;> cases choice
      exact heldValue
    · intro a occurs
      rw [List.mem_singleton.mp occurs]
      exact within_ite within_one (within_ite within_e power)
  · rename_i factors
    have part := (within_product factors).mp held
    split
    · apply within_ite (ProductParts.within_finish (by simp))
      exact (within_power _ _).mpr ⟨within_e, within_productOf _ (by simp)⟩
    · have side : ∀ (condition : Term → Bool),
          (∀ a ∈ (factors.partition condition).1, a.Within P) ∧
            ∀ a ∈ (factors.partition condition).2, a.Within P :=
        fun condition => ⟨fun a occurs => part a (List.mem_partition.mpr (.inl occurs)),
          fun a occurs => part a (List.mem_partition.mpr (.inr occurs))⟩
      split
      · rename_i a single
        have occurs : Term.apply .log a ∈ [Term.apply .log a] := List.mem_cons_self
        rw [← single] at occurs
        have heldLog := (within_apply _ _).mp ((side _).1 _ occurs)
        exact within_ite (keeps.power heldLog (within_productOf .one (side _).2)) unevaluated
      · exact unevaluated
  · exact unevaluated

theorem power_map {exponent : Term} (held : ∀ a ∈ terms, a.Within P)
    (heldExponent : exponent.Within P) :
    ∀ b ∈ terms.map fun a => powerWithin fuel a exponent, b.Within P := by
  intro b occurs
  rcases List.mem_map.mp occurs with ⟨a, here, rfl⟩
  exact keeps.power (held a here) heldExponent

theorem powerWithin_succ {base exponent : Term} (heldBase : base.Within P)
    (heldExponent : exponent.Within P) : (powerWithin (fuel + 1) base exponent).Within P := by
  have unevaluated : (Term.power base exponent).Within P :=
    (within_power _ _).mpr ⟨heldBase, heldExponent⟩
  rw [powerWithin.eq_def]
  dsimp only
  apply within_ite within_undefined
  apply within_ite within_one
  apply within_ite heldBase
  apply within_ite within_undefined
  apply within_ite
  · exact within_ite within_undefined within_one
  · split
    · rename_i others inverse
      apply keeps.exp
      apply keeps.mul
      intro a occurs
      exact within_factors heldExponent a (mem_of_mem_splitInverseLog? inverse a occurs)
    · split
      · exact within_scalarPower _ heldExponent
      · exact within_complexInfinityPower heldExponent
      · exact keeps.exp heldExponent
      · split
        · exact ProductParts.within_finish (by simp)
        · exact unevaluated
      · -- A power of a power.
        rename_i inner outer _
        rcases (within_power inner outer).mp heldBase with ⟨heldInner, heldOuter⟩
        have product : (mulWithin fuel [outer, exponent]).Within P :=
          keeps.mul (by simp [heldOuter, heldExponent])
        have merged := keeps.power heldInner product
        apply within_ite merged
        split
        · apply within_ite
          · have turned := keeps.power within_minusOne heldExponent
            have opposite := keeps.power (within_neg heldInner) (within_neg heldExponent)
            exact keeps.mul (by simp [turned, opposite])
          · apply within_ite merged
            apply within_ite
            · exact keeps.power (within_ite (within_neg heldInner) heldInner) product
            · exact unevaluated
        · exact within_ite merged unevaluated
      · -- A power of a product.
        rename_i factors _
        have part := (within_product factors).mp heldBase
        apply within_ite (keeps.mul (keeps.power_map part heldExponent))
        split
        · rename_i s
          have apart := (within_separable part).1
          have signed := within_signed part
          apply within_ite
          · apply within_ite unevaluated
            apply keeps.mul
            refine List.forall_mem_append.mpr ⟨keeps.power_map apart heldExponent, ?_⟩
            split
            · simp
            · rename_i a single
              have heldSingle := keeps.power (signed a (by simp [single])) heldExponent
              simp [heldSingle]
            · simpa [heldExponent] using signed
          · exact unevaluated
        · exact unevaluated
      · -- A power of a sum.
        have root : ∀ base exponent re im, (mulWithin fuel
            [ratPower base exponent, ofComplexParts re im]).Within P :=
          fun _ _ _ _ => keeps.mul (by simp)
        split
        · exact within_scale _ (within_ofComplexParts _ _)
        · split
          · exact within_ite (root _ _ _ _) unevaluated
          · exact unevaluated
        · exact unevaluated
      · -- A power of a size.
        split
        · exact within_ite (keeps.power heldBase heldExponent) unevaluated
        · exact unevaluated
      · exact unevaluated

theorem succ : Keeps P (fuel + 1) where
  mul := keeps.mulWithin_succ
  exp := keeps.expWithin_succ
  power := keeps.powerWithin_succ

end Keeps

theorem keeps (fuel : Nat) : Keeps P fuel := by
  induction fuel with
  | zero => exact keeps_zero
  | succ fuel ih => exact ih.succ

theorem within_mulAll (held : ∀ a ∈ terms, a.Within P) : (mulAll terms).Within P :=
  (keeps depth).mul held

@[simp] theorem within_mul (left : a.Within P) (right : b.Within P) : (mul a b).Within P := by
  unfold mul
  split
  · exact within_scalar _
  · exact within_mulAll (by simp [left, right])

@[simp] theorem within_pow (base : a.Within P) (exponent : b.Within P) : (pow a b).Within P :=
  (keeps depth).power base exponent

@[simp] theorem within_exp (held : a.Within P) : (exp a).Within P :=
  within_pow within_e held

@[simp] theorem within_inverse (held : a.Within P) : (inverse a).Within P :=
  within_pow held within_minusOne

@[simp] theorem within_div (left : a.Within P) (right : b.Within P) : (div a b).Within P := by
  have product := within_mul left (within_inverse right)
  unfold div
  split
  · exact within_ite (within_scalar _) product
  · exact product

@[simp] theorem within_sqrt (held : a.Within P) : (sqrt a).Within P :=
  within_pow held within_half

end Within

end Term
end FormulaLine

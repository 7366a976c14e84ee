import FormulaLine.Proofs.Balance
import Mathlib.Order.Bounds.Basic

namespace FormulaLine
namespace Guard

/-!
# Where the balance fails

A place of a fault is told by counting alone: either more is closed up to it than was
opened, or a parenthesis is opened there and from there on more stays open than is
closed.  The scan counts nothing.  It keeps the places of the parentheses that are
open, and answers with one of them or with the place where it stands.

What ties the two together is the shape of the text that has been read.  It is a row of
balanced texts with one opening parenthesis between any two of them, and the pending
places are the places of these parentheses (`Pending`).  Each character keeps that
shape: a closing parenthesis makes one balanced text of the last two.  The outermost of
the pending places is then the leftmost parenthesis that is never closed.
-/

/-- Up to the place and with it, more is closed than was opened. -/
def SurplusAt (text : List Char) (place : Nat) : Prop :=
  place < text.length ∧ (text.take (place + 1)).count '(' < (text.take (place + 1)).count ')'

/-- A parenthesis is opened at the place, and every beginning of the text that goes past
it opens more, from the place on, than it closes. -/
def UnclosedAt (text : List Char) (place : Nat) : Prop :=
  text[place]? = some '(' ∧ ∀ part, part <+: text → place < part.length →
    (part.drop place).count ')' < (part.drop place).count '('

/-! ## Parts of a text -/

section Parts

variable {text before behind rest : List Char} {place : Nat}

theorem closesWithin_zero_iff :
    ClosesWithin 0 text ↔ ∀ part, part <+: text → part.count ')' ≤ part.count '(' := by
  simp only [ClosesWithin, Nat.zero_add]

theorem ClosesWithin.of_prefix (within : ClosesWithin 0 text) (begins : before <+: text) :
    ClosesWithin 0 before :=
  fun part inside => within part (inside.trans begins)

/-- A beginning of two texts in a row ends in the first or in the second of them. -/
theorem exists_of_prefix_append {part : List Char} (begins : part <+: before ++ behind) :
    part <+: before ∨ ∃ more, more <+: behind ∧ part = before ++ more := by
  rcases List.prefix_or_prefix_of_prefix begins (List.prefix_append before behind) with
    inside | ⟨more, rfl⟩
  · exact Or.inl inside
  · exact Or.inr ⟨more, (List.prefix_append_right_inj before).mp begins, rfl⟩

theorem ClosesWithin.append (first : ClosesWithin 0 before) (second : ClosesWithin 0 behind) :
    ClosesWithin 0 (before ++ behind) := by
  rw [closesWithin_zero_iff] at first second ⊢
  intro part begins
  rcases exists_of_prefix_append begins with inside | ⟨more, after, rfl⟩
  · exact first part inside
  · rw [List.count_append, List.count_append]
    exact Nat.add_le_add (first before (List.prefix_refl before)) (second more after)

theorem ClosesWithin.opening (within : ClosesWithin 0 behind) : ClosesWithin 0 ('(' :: behind) := by
  rw [closesWithin_opening]
  exact fun part begins => Nat.le_trans (within part begins) (by omega)

/-- No place has a surplus just if no beginning closes more than it opens. -/
theorem forall_not_surplusAt_iff : (∀ place, ¬ SurplusAt text place) ↔ ClosesWithin 0 text := by
  rw [closesWithin_zero_iff]
  constructor
  · intro free part begins
    cases part with
    | nil => exact Nat.le_refl 0
    | cons c part =>
        have here := List.prefix_iff_eq_take.mp begins
        have inside : part.length < text.length := begins.length_le
        rw [List.length_cons] at here
        have noSurplus := free part.length
        rw [SurplusAt, ← here] at noSurplus
        exact Nat.le_of_not_lt fun more => noSurplus ⟨inside, more⟩
  · rintro within place ⟨-, more⟩
    exact Nat.not_le_of_lt more (within _ (List.take_prefix (place + 1) text))

/-- What comes later does not touch a surplus. -/
theorem surplusAt_append_iff (inside : place < before.length) :
    SurplusAt (before ++ behind) place ↔ SurplusAt before place := by
  have later : place < (before ++ behind).length :=
    Nat.lt_of_lt_of_le inside (List.prefix_append before behind).length_le
  rw [SurplusAt, SurplusAt, List.take_append_of_le_length inside]
  exact ⟨fun surplus => ⟨inside, surplus.2⟩, fun surplus => ⟨later, surplus.2⟩⟩

/-- An opened parenthesis stays open if nothing behind it closes more than is opened
behind it. -/
theorem unclosedAt_length_iff :
    UnclosedAt (before ++ '(' :: behind) before.length ↔ ClosesWithin 0 behind := by
  rw [closesWithin_zero_iff]
  constructor
  · rintro ⟨-, leftOpen⟩ part begins
    have past := leftOpen (before ++ '(' :: part)
      ((List.prefix_append_right_inj before).mpr (List.cons_prefix_cons.mpr ⟨rfl, begins⟩))
      (by simp)
    rw [List.drop_left, List.count_cons_of_ne (by decide), List.count_cons_self] at past
    exact Nat.le_of_lt_succ past
  · intro within
    refine ⟨by simp, ?_⟩
    intro part begins past
    rcases exists_of_prefix_append begins with inside | ⟨more, after, rfl⟩
    · exact absurd inside.length_le (Nat.not_le_of_lt past)
    · cases more with
      | nil => simp at past
      | cons c more =>
          rcases List.cons_prefix_cons.mp after with ⟨rfl, inBehind⟩
          rw [List.drop_left, List.count_cons_of_ne (by decide), List.count_cons_self]
          exact Nat.lt_succ_of_le (within more inBehind)

/-- A text is cut in two by a parenthesis that is never closed. -/
theorem UnclosedAt.exists_cut (unclosed : UnclosedAt text place) :
    ∃ before behind, text = before ++ '(' :: behind ∧ before.length = place ∧
      ClosesWithin 0 behind := by
  rcases List.getElem?_eq_some_iff.mp unclosed.1 with ⟨inside, here⟩
  have cut : text = text.take place ++ '(' :: text.drop (place + 1) := by
    rw [← here, ← List.drop_eq_getElem_cons inside, List.take_append_drop]
  have size : (text.take place).length = place := List.length_take_of_le (Nat.le_of_lt inside)
  have opened : UnclosedAt (text.take place ++ '(' :: text.drop (place + 1))
      (text.take place).length := by
    rw [← cut, size]
    exact unclosed
  exact ⟨text.take place, text.drop (place + 1), cut, size, unclosedAt_length_iff.mp opened⟩

theorem UnclosedAt.append (unclosed : UnclosedAt before place) (within : ClosesWithin 0 behind) :
    UnclosedAt (before ++ behind) place := by
  rcases unclosed.exists_cut with ⟨first, second, rfl, rfl, withinSecond⟩
  rw [List.append_assoc, List.cons_append, unclosedAt_length_iff]
  exact withinSecond.append within

theorem UnclosedAt.of_append (unclosed : UnclosedAt (before ++ behind) place)
    (inside : place < before.length) : UnclosedAt before place := by
  rcases unclosed.exists_cut with ⟨first, second, parts, rfl, within⟩
  rcases List.append_eq_append_iff.mp parts with ⟨between, longer, -⟩ | ⟨between, rfl, later⟩
  · have short := congrArg List.length longer
    rw [List.length_append] at short
    omega
  · cases between with
    | nil => simp at inside
    | cons c between =>
        rcases List.cons.inj later with ⟨rfl, rfl⟩
        exact unclosedAt_length_iff.mpr (within.of_prefix (List.prefix_append between behind))

end Parts

/-! ## Balanced texts -/

/-- No beginning closes more than it opens, and the whole closes all of it. -/
structure Balanced (text : List Char) : Prop where
  within : ClosesWithin 0 text
  closed : text.count '(' = text.count ')'

namespace Balanced

variable {text before behind : List Char}

theorem nil : Balanced [] :=
  ⟨closesWithin_nil 0, rfl⟩

theorem append (first : Balanced before) (second : Balanced behind) :
    Balanced (before ++ behind) := by
  refine ⟨first.within.append second.within, ?_⟩
  rw [List.count_append, List.count_append, first.closed, second.closed]

theorem enclosed (balanced : Balanced text) : Balanced ('(' :: (text ++ [')'])) := by
  have leftOpen : ('(' :: text).count ')' < 0 + ('(' :: text).count '(' := by
    simp [balanced.closed]
  refine ⟨balanced.within.opening.concat leftOpen, ?_⟩
  simp [List.count_append, balanced.closed]

theorem other {c : Char} (other : isParenthesis c = false) : Balanced [c] := by
  refine ⟨(closesWithin_other 0 [] other).mpr (closesWithin_nil 0), ?_⟩
  rw [isParenthesis, Bool.or_eq_false_iff, beq_eq_false_iff_ne, beq_eq_false_iff_ne] at other
  rw [List.count_singleton, List.count_singleton]
  simp [other.1, other.2]

/-- A balanced text closes all of its parentheses. -/
theorem not_unclosedAt (balanced : Balanced text) (place : Nat) : ¬ UnclosedAt text place := by
  intro unclosed
  rcases unclosed.exists_cut with ⟨before, behind, rfl, -, within⟩
  have first := closesWithin_zero_iff.mp balanced.within before (List.prefix_append _ _)
  have second := closesWithin_zero_iff.mp within behind (List.prefix_refl behind)
  have whole := balanced.closed
  rw [List.count_append, List.count_append, List.count_cons_self,
    List.count_cons_of_ne (by decide)] at whole
  omega

end Balanced

theorem imbalance?_eq_none_iff_balanced (text : List Char) :
    imbalance? text = none ↔ Balanced text := by
  rw [imbalance?_eq_none_iff]
  exact ⟨fun facts => ⟨facts.1, facts.2⟩, fun balanced => ⟨balanced.within, balanced.closed⟩⟩

/-! ## What the pending places are -/

/-- The text leaves open the parentheses at the given places, the innermost first.  What
stands between them, before them and behind them is balanced. -/
inductive Pending : List Char → List Nat → Prop where
  | none {text : List Char} (balanced : Balanced text) : Pending text []
  | opened {before inner : List Char} {outer : List Nat} (pending : Pending before outer)
      (balanced : Balanced inner) : Pending (before ++ '(' :: inner) (before.length :: outer)

namespace Pending

variable {done : List Char} {places : List Nat}

theorem within (pending : Pending done places) : ClosesWithin 0 done := by
  induction pending with
  | none balanced => exact balanced.within
  | opened _ balanced ih => exact ih.append balanced.within.opening

theorem opening (pending : Pending done places) :
    Pending (done ++ ['(']) (done.length :: places) :=
  .opened pending .nil

theorem append (pending : Pending done places) {more : List Char} (balanced : Balanced more) :
    Pending (done ++ more) places := by
  cases pending with
  | none before => exact .none (before.append balanced)
  | opened pending inner =>
      rw [List.append_assoc, List.cons_append]
      exact .opened pending (inner.append balanced)

/-- A closing parenthesis closes the innermost of the pending ones. -/
theorem closing {place : Nat} (pending : Pending done (place :: places)) :
    Pending (done ++ [')']) places := by
  cases pending with
  | opened pending inner =>
      rw [List.append_assoc, List.cons_append]
      exact pending.append inner.enclosed

/-- The outermost of the pending places is the leftmost that is never closed. -/
theorem isLeast_unclosedAt {place : Nat} (pending : Pending done places)
    (outermost : places.getLast? = some place) : IsLeast {p | UnclosedAt done p} place := by
  induction pending with
  | none => cases outermost
  | @opened before inner outer pending balanced ih =>
      cases pending with
      | none balancedBefore =>
          cases outermost
          refine ⟨unclosedAt_length_iff.mpr balanced.within, ?_⟩
          intro other unclosed
          by_contra earlier
          exact balancedBefore.not_unclosedAt other
            (UnclosedAt.of_append unclosed (Nat.lt_of_not_le earlier))
      | @opened further innerBefore outer pending balancedBefore =>
          have least := ih (by rwa [List.getLast?_cons_cons] at outermost)
          have inside := (List.getElem?_eq_some_iff.mp least.1.1).1
          refine ⟨least.1.append balanced.within.opening, ?_⟩
          intro other unclosed
          by_cases earlier : other < (further ++ '(' :: innerBefore).length
          · exact least.2 (UnclosedAt.of_append unclosed earlier)
          · exact Nat.le_of_lt (Nat.lt_of_lt_of_le inside (Nat.le_of_not_lt earlier))

end Pending

/-! ## Where the scan stops -/

/-- The fault of a text is at the place: at its first surplus, or, if it has none, at its
leftmost parenthesis that is never closed. -/
def FaultAt (text : List Char) (place : Nat) : Prop :=
  IsLeast {p | SurplusAt text p} place ∨
    (∀ p, ¬ SurplusAt text p) ∧ IsLeast {p | UnclosedAt text p} place

theorem isLeast_surplusAt {done : List Char} (balanced : Balanced done) (rest : List Char) :
    IsLeast {p | SurplusAt (done ++ ')' :: rest) p} done.length := by
  constructor
  · refine ⟨by simp, ?_⟩
    have here : (done ++ ')' :: rest).take (done.length + 1) = done ++ [')'] := by
      rw [List.take_length_add_append, List.take_succ_cons, List.take_zero]
    rw [here, List.count_append, List.count_append, balanced.closed]
    simp
  · intro other surplus
    by_contra earlier
    have inside := (surplusAt_append_iff (Nat.lt_of_not_le earlier)).mp surplus
    exact forall_not_surplusAt_iff.mpr balanced.within other inside

/-- Wherever the scan stands in a text, what it finds in the rest of it is the fault of
the whole. -/
theorem faultAt_of_faultAfter {done : List Char} {places : List Nat}
    (pending : Pending done places) {rest : List Char} {place : Nat}
    (found : faultAfter places done.length rest = some place) : FaultAt (done ++ rest) place := by
  induction rest generalizing done places with
  | nil =>
      rw [faultAfter] at found
      rw [List.append_nil]
      exact Or.inr ⟨forall_not_surplusAt_iff.mpr pending.within, pending.isLeast_unclosedAt found⟩
  | cons c rest ih =>
      have oneMore : done ++ c :: rest = done ++ [c] ++ rest := by simp
      have size : (done ++ [c]).length = done.length + 1 := by simp
      by_cases opening : c = '('
      · subst opening
        rw [faultAfter_opening, ← size] at found
        exact oneMore ▸ ih pending.opening found
      by_cases closing : c = ')'
      · subst closing
        cases places with
        | nil =>
            rw [faultAfter_surplus] at found
            cases found
            cases pending with
            | none balanced => exact Or.inl (isLeast_surplusAt balanced rest)
        | cons innermost outer =>
            rw [faultAfter_closing, ← size] at found
            exact oneMore ▸ ih pending.closing found
      · have other : isParenthesis c = false := by simp [isParenthesis, opening, closing]
        rw [faultAfter_other _ _ _ other, ← size] at found
        exact oneMore ▸ ih (pending.append (.other other)) found

/-- A text has a fault at one place at most. -/
theorem FaultAt.unique {text : List Char} {first second : Nat} (here : FaultAt text first)
    (there : FaultAt text second) : first = second := by
  rcases here with surplus | ⟨free, unclosed⟩
  · rcases there with surplus' | ⟨free, -⟩
    · exact surplus.unique surplus'
    · exact absurd surplus.1 (free first)
  · rcases there with surplus | ⟨-, unclosed'⟩
    · exact absurd surplus.1 (free second)
    · exact unclosed.unique unclosed'

theorem FaultAt.not_balanced {text : List Char} {place : Nat} (fault : FaultAt text place) :
    ¬ Balanced text := by
  intro balanced
  rcases fault with surplus | ⟨-, unclosed⟩
  · exact forall_not_surplusAt_iff.mpr balanced.within place surplus.1
  · exact balanced.not_unclosedAt place unclosed.1

/-- A text is balanced if no beginning of it closes more than it opens and the whole
closes as many parentheses as it opens.  A text that is not has its fault at the first
place up to which more is closed than was opened, and if there is none, at the leftmost
parenthesis that is never closed. -/
theorem imbalance?_locates (text : List Char) :
    (imbalance? text = none ↔
      (∀ part, part <+: text → part.count ')' ≤ part.count '(') ∧
        text.count '(' = text.count ')') ∧
      ∀ place, imbalance? text = some place ↔
        IsLeast {p | SurplusAt text p} place ∨
          (∀ p, ¬ SurplusAt text p) ∧ IsLeast {p | UnclosedAt text p} place := by
  refine ⟨?_, ?_⟩
  · rw [imbalance?_eq_none_iff, closesWithin_zero_iff]
  · intro place
    have located {other : Nat} (found : imbalance? text = some other) : FaultAt text other :=
      faultAt_of_faultAfter (.none .nil) found
    constructor
    · exact located
    · intro fault
      cases found : imbalance? text with
      | none =>
          have balanced := (imbalance?_eq_none_iff_balanced text).mp found
          exact absurd balanced (FaultAt.not_balanced fault)
      | some other => rw [(located found).unique fault]

/-- A parenthesis that is closed is passed over. -/
example : imbalance? "(x)+2((x)+sin(".toList = some 5 ∧ imbalance? "((x)))+(".toList = some 5 := by
  decide

end Guard
end FormulaLine

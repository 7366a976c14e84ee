import FormulaLine.Proofs.Guarding

namespace FormulaLine
namespace Guard

/-!
# Balance by counting

A fault is looked for with the places of the open parentheses in hand.  Whether there
is one depends on numbers alone: each beginning of the text closes at most what is open
there, and the whole closes all of it.

The scan is in the middle of a text most of the time.  The number of parentheses that
are open already is therefore part of the statement, and a step of the scan changes
that number as it changes the pending places.
-/

/-- With so many parentheses open before the text, none of its beginnings closes more
than are open. -/
def ClosesWithin (pending : Nat) (text : List Char) : Prop :=
  ∀ part, part <+: text → part.count ')' ≤ pending + part.count '('

instance (pending : Nat) (text : List Char) : Decidable (ClosesWithin pending text) :=
  decidable_of_iff (∀ part ∈ text.inits, part.count ')' ≤ pending + part.count '(') (by
    simp only [List.mem_inits]
    rfl)

/-! ## Steps of the count -/

section Steps

variable (pending : Nat) (rest : List Char)

theorem closesWithin_nil : ClosesWithin pending [] := by
  intro part begins
  rw [List.prefix_nil.mp begins]
  exact Nat.zero_le _

theorem closesWithin_cons_iff (c : Char) :
    ClosesWithin pending (c :: rest) ↔
      ∀ part, part <+: rest → (c :: part).count ')' ≤ pending + (c :: part).count '(' := by
  constructor
  · intro within part begins
    exact within (c :: part) (List.cons_prefix_cons.mpr ⟨rfl, begins⟩)
  · intro within part begins
    cases part with
    | nil => exact Nat.zero_le _
    | cons d part =>
        rcases List.cons_prefix_cons.mp begins with ⟨rfl, behind⟩
        exact within part behind

theorem closesWithin_opening :
    ClosesWithin pending ('(' :: rest) ↔ ClosesWithin (pending + 1) rest := by
  rw [closesWithin_cons_iff]
  simp [ClosesWithin, Nat.add_assoc, Nat.add_comm 1]

theorem closesWithin_closing :
    ClosesWithin (pending + 1) (')' :: rest) ↔ ClosesWithin pending rest := by
  rw [closesWithin_cons_iff]
  simp [ClosesWithin, Nat.add_right_comm pending 1]

theorem not_closesWithin_surplus : ¬ ClosesWithin 0 (')' :: rest) := by
  intro within
  exact absurd (within [')'] (List.prefix_append [')'] rest)) (by decide)

theorem closesWithin_other {c : Char} (other : isParenthesis c = false) :
    ClosesWithin pending (c :: rest) ↔ ClosesWithin pending rest := by
  rw [isParenthesis, Bool.or_eq_false_iff, beq_eq_false_iff_ne, beq_eq_false_iff_ne] at other
  rw [closesWithin_cons_iff]
  simp [ClosesWithin, List.count_cons_of_ne other.1, List.count_cons_of_ne other.2]

/-- One more parenthesis may be closed at the end if one is left open. -/
theorem ClosesWithin.concat {pending : Nat} {text : List Char} (within : ClosesWithin pending text)
    (leftOpen : text.count ')' < pending + text.count '(') :
    ClosesWithin pending (text ++ [')']) := by
  intro part begins
  rcases List.prefix_concat_iff.mp begins with rfl | inside
  · simpa [List.count_append] using Nat.succ_le_of_lt leftOpen
  · exact within part inside

end Steps

/-! ## Faults and counts -/

/-- Nothing is wrong behind the pending places if no beginning closes more than is open,
and in the end nothing is open. -/
theorem faultAfter_eq_none_iff (pending : List Nat) (position : Nat) (text : List Char) :
    faultAfter pending position text = none ↔
      ClosesWithin pending.length text ∧ pending.length + text.count '(' = text.count ')' := by
  induction text generalizing pending position with
  | nil =>
      rw [faultAfter, List.getLast?_eq_none_iff, ← List.length_eq_zero_iff]
      simp [closesWithin_nil]
  | cons c rest ih =>
      by_cases opening : c = '('
      · subst opening
        rw [faultAfter_opening, ih, closesWithin_opening, List.length_cons]
        simp [Nat.add_assoc, Nat.add_comm 1]
      by_cases closing : c = ')'
      · subst closing
        cases pending with
        | nil =>
            rw [faultAfter_surplus]
            simp [not_closesWithin_surplus]
        | cons place outer =>
            rw [faultAfter_closing, ih, List.length_cons, closesWithin_closing]
            simp [Nat.add_right_comm outer.length 1]
      · have other : isParenthesis c = false := by simp [isParenthesis, opening, closing]
        rw [faultAfter_other _ _ _ other, ih, closesWithin_other _ _ other,
          List.count_cons_of_ne opening, List.count_cons_of_ne closing]

/-- A text is balanced if no beginning of it closes more than it opens, and the whole
closes as many parentheses as it opens. -/
theorem imbalance?_eq_none_iff (text : List Char) :
    imbalance? text = none ↔ ClosesWithin 0 text ∧ text.count '(' = text.count ')' := by
  rw [imbalance?, faultAfter_eq_none_iff, List.length_nil, Nat.zero_add]

end Guard
end FormulaLine

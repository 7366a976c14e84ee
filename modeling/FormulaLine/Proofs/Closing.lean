import FormulaLine.Proofs.Balance
import FormulaLine.Proofs.Editing
import FormulaLine.Proofs.Suggesting

namespace FormulaLine

/-!
# Closing what is open

Two parts of the program tell whether a parenthesis is left open.  The hint of a line
compares two counts, and the guard keeps the places of the open parentheses.  Where no
beginning of the line closes more than it opens, both tell the same, since the places
are then as many as the difference of the counts.

Completing such a line writes one closing parenthesis after the other.  Each of them may
be closed there, so the line stays of that kind; it is unbalanced up to the last one, and
balanced with it.
-/

namespace Suggest

open Split

variable {text : List Char}

/-- How many parentheses a line leaves open, and none if it closes more than it opens. -/
def openCount (text : List Char) : Nat :=
  text.count '(' - text.count ')'

theorem leavesOpen_iff (text : List Char) : leavesOpen text = true ↔ 0 < openCount text := by
  rw [leavesOpen, decide_eq_true_eq, openCount, Nat.sub_pos_iff_lt]

theorem openCount_append (left right : List Char) :
    openCount (left ++ right) =
      left.count '(' + right.count '(' - (left.count ')' + right.count ')') := by
  rw [openCount, List.count_append, List.count_append]

theorem openCount_append_closing (text : List Char) (count : Nat) :
    openCount (text ++ List.replicate count ')') = openCount text - count := by
  have free : '(' ∉ List.replicate count ')' := by simp
  rw [openCount_append, List.count_replicate_self, List.count_eq_zero_of_not_mem free, openCount]
  omega

/-! ## What a hint can be -/

theorem hint_of_leavesOpen (opened : leavesOpen text = true) : hint text = .closing := by
  cases text with
  | nil => cases opened
  | cons c rest =>
      rw [hint, opened]
      rfl

/-- A line that is not empty and leaves nothing open has no hint, or an entry of the
table. -/
theorem hint_cases (nonempty : text ≠ []) (closed : leavesOpen text = false) :
    hint text = .none ∨ ∃ key, CompletionTable.standard.get? key = some (hint text) := by
  cases last : (split .multiplication text).getLast? with
  | none => exact absurd (List.getLast?_eq_none_iff.mp last) (split_ne_nil _ nonempty)
  | some token =>
      rw [hint_of_getLast? ((leavesOpen_eq_false_iff text).mp closed) last, completionOf?]
      split
      · exact Or.inl rfl
      · cases found : CompletionTable.standard.get? token with
        | none => exact Or.inl rfl
        | some entry => exact Or.inr ⟨token, found⟩

/-- What completes a key is the rest of a name and the parenthesis of its call. -/
theorem exists_of_mem_candidates {key candidate : List Char} {entry : Hint}
    (found : CompletionTable.standard.get? key = some entry)
    (offered : candidate ∈ entry.candidates) :
    ∃ (f : Builtin) (rest : List Char), key ++ rest = f.spelling ∧ candidate = rest ++ ['('] := by
  rcases ((Completion.completes_of_get?_standard found).2.mem_iff candidate).mp offered with
    ⟨missing, name, supported, parts⟩
  rcases List.mem_map.mp supported with ⟨f, -, rfl⟩
  rcases (List.eq_nil_or_concat candidate).resolve_left missing with ⟨rest, last, rfl⟩
  rw [List.concat_eq_append, ← List.append_assoc] at parts
  rcases List.append_inj' parts rfl with ⟨whole, ends⟩
  exact ⟨f, rest, whole, by rw [List.concat_eq_append, ends]⟩

/-- No entry of the table closes a parenthesis. -/
theorem ne_closing_of_get? {key : List Char} {entry : Hint}
    (found : CompletionTable.standard.get? key = some entry) : entry ≠ .closing := by
  rintro rfl
  have offered : [')'] ∈ Hint.closing.candidates := List.mem_singleton_self _
  rcases exists_of_mem_candidates found offered with ⟨f, rest, -, ends⟩
  have last := congrArg List.getLast? ends
  rw [List.getLast?_concat] at last
  exact absurd last (by decide)

/-- A line is offered a closing parenthesis just when it leaves one open. -/
theorem hint_eq_closing_iff (text : List Char) : hint text = .closing ↔ leavesOpen text = true := by
  constructor
  · intro closing
    cases opened : leavesOpen text with
    | true => rfl
    | false =>
        by_cases nonempty : text = []
        · subst nonempty
          cases closing
        · rcases hint_cases nonempty opened with none | ⟨key, found⟩
          · rw [none] at closing
            cases closing
          · exact absurd closing (ne_closing_of_get? found)
  · exact hint_of_leavesOpen

end Suggest

namespace Guard

open Suggest

variable {text : List Char}

/-- As long as one is left open, closing parentheses may be appended. -/
theorem ClosesWithin.append_closing (within : ClosesWithin 0 text) {count : Nat}
    (few : count ≤ openCount text) : ClosesWithin 0 (text ++ List.replicate count ')') := by
  induction count with
  | zero =>
      rw [List.replicate_zero, List.append_nil]
      exact within
  | succ count ih =>
      have leftOpen := openCount_append_closing text count
      rw [openCount] at leftOpen
      rw [List.replicate_succ', ← List.append_assoc]
      exact (ih (Nat.le_of_succ_le few)).concat (by omega)

/-- Where no beginning closes more than it opens, a line is unbalanced just when it leaves
a parenthesis open. -/
theorem isSome_imbalance?_iff (within : ClosesWithin 0 text) :
    (imbalance? text).isSome ↔ leavesOpen text = true := by
  have whole := within text List.prefix_rfl
  rw [Option.isSome_iff_ne_none, Ne, imbalance?_eq_none_iff, leavesOpen_iff, openCount]
  simp only [within, true_and]
  omega

end Guard

namespace Session

open Guard Suggest

variable {session : Session}

/-! ## Words of movements -/

theorem settled_move (settled : session.Settled) (movement : Movement) :
    (session.move movement).Settled :=
  settled.take (.move movement)

theorem settled_foldl_move (settled : session.Settled) (word : List Movement) :
    (word.foldl move session).Settled := by
  have taken := settled_foldl settled (word.map Step.move)
  rw [List.foldl_map] at taken
  exact taken

/-! ## Completing what is open -/

/-- A settled field that leaves a parenthesis open completes it. -/
theorem Settled.move_complete_of_leavesOpen (settled : session.Settled)
    (opened : leavesOpen session.text = true) :
    session.move .complete = ofText (session.text ++ [')']) := by
  have closing : session.hint = .closing := settled.hint_eq.trans (hint_of_leavesOpen opened)
  have selected : session.selected? = some [')'] := by
    rw [selected?, closing]
    rfl
  exact move_complete_of_selected selected

/-- As many completions as parentheses are left open, or fewer, close one each. -/
theorem Settled.text_foldl_complete (settled : session.Settled) {count : Nat}
    (few : count ≤ openCount session.text) :
    ((List.replicate count Movement.complete).foldl move session).text =
      session.text ++ List.replicate count ')' := by
  induction count with
  | zero => exact (List.append_nil session.text).symm
  | succ count ih =>
      -- The last completion is split off, because the line in front of it is known by then.
      have before := ih (Nat.le_of_succ_le few)
      have opened : leavesOpen
          ((List.replicate count Movement.complete).foldl move session).text = true := by
        rw [leavesOpen_iff, before, openCount_append_closing]
        omega
      have closed := (settled_foldl_move settled _).move_complete_of_leavesOpen opened
      rw [List.replicate_succ', List.foldl_append, List.foldl_cons, List.foldl_nil, closed, before,
        ofText, List.append_assoc, ← List.replicate_succ']

/-- Such a line stays of its kind, and each completion leaves one parenthesis fewer open. -/
theorem Settled.nested_foldl_complete (settled : session.Settled)
    (nested : ClosesWithin 0 session.text) {count : Nat} (few : count ≤ openCount session.text) :
    let next := (List.replicate count Movement.complete).foldl move session
    ClosesWithin 0 next.text ∧ openCount next.text = openCount session.text - count := by
  intro next
  rw [settled.text_foldl_complete few]
  exact ⟨nested.append_closing few, openCount_append_closing session.text count⟩

/-- Where no beginning of a line closes more than it opens, the hint asks for a closing
parenthesis just when the guard finds the line unbalanced.  A field with such a line closes
what is open by as many completions: before the last of them the hint still asks for a
parenthesis and the line is unbalanced, and after it the line is balanced. -/
theorem completions_balance {text : List Char} (nested : ClosesWithin 0 text) :
    (Suggest.hint text = .closing ↔ (imbalance? text).isSome) ∧
      ∀ steps, (run steps).text = text →
        (∀ count < openCount text,
          let next := (List.replicate count Movement.complete).foldl move (run steps)
          next.hint = .closing ∧ (imbalance? next.text).isSome) ∧
        let last := (List.replicate (openCount text) Movement.complete).foldl move (run steps)
        last.text = text ++ List.replicate (openCount text) ')' ∧ imbalance? last.text = none := by
  refine ⟨(hint_eq_closing_iff text).trans (isSome_imbalance?_iff nested).symm, ?_⟩
  rintro steps rfl
  have settled := settled_run steps
  constructor
  · intro count few next
    rcases settled.nested_foldl_complete nested (Nat.le_of_lt few) with ⟨nestedNext, left⟩
    have settledNext : next.Settled := settled_foldl_move settled _
    have opened : leavesOpen next.text = true := by
      rw [leavesOpen_iff, left]
      omega
    exact ⟨settledNext.hint_eq.trans (hint_of_leavesOpen opened),
      (isSome_imbalance?_iff nestedNext).mpr opened⟩
  · intro last
    rcases settled.nested_foldl_complete nested (Nat.le_refl _) with ⟨nestedLast, left⟩
    refine ⟨settled.text_foldl_complete (Nat.le_refl _), ?_⟩
    rw [← Option.not_isSome_iff_eq_none, isSome_imbalance?_iff nestedLast, leavesOpen_iff, left,
      Nat.sub_self]
    exact Nat.lt_irrefl 0

theorem completions_balance_of_nested :
    let text := "2(x)sin((xpi*cos(".toList
    let steps := [Step.append "2(x)si".toList, .update text]
    ClosesWithin 0 text ∧ (Suggest.hint text = .closing ↔ (imbalance? text).isSome) ∧
      (run steps).text = text ∧ 2 < openCount text ∧
      (let next := (List.replicate 2 Movement.complete).foldl move (run steps)
       next.hint = .closing ∧ (imbalance? next.text).isSome) ∧
      let last := (List.replicate (openCount text) Movement.complete).foldl move (run steps)
      last.text = text ++ List.replicate (openCount text) ')' ∧ imbalance? last.text = none := by
  intro text steps
  have nested : ClosesWithin 0 text := by decide
  have entered : (run steps).text = text := by decide
  rcases completions_balance nested with ⟨agree, completing⟩
  rcases completing steps entered with ⟨unbalanced, balanced⟩
  exact ⟨nested, agree, entered, by decide, unbalanced 2 (by decide), balanced⟩

end Session
end FormulaLine

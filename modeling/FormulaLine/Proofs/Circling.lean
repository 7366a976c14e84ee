import FormulaLine.Proofs.Editing
import Mathlib.Logic.Equiv.Defs

namespace FormulaLine

/-!
# Moves round the candidates

The candidates of a choice stand in a circle, and a move takes the cursor one place
along it.  Each direction turns over at its own end: upwards the end is looked for
before the step, downwards behind it.  Modulo the number of candidates both come to
plain arithmetic, and a turn by some places followed by a turn by others is a turn by
all of them (`turned_turned`).  What a word of moves does is therefore settled by how
often each direction occurs in it, and not by their order.

Only choices have a circle.  Without one the moves leave a field as it is.  To accept
a candidate is no move of the cursor, and words that accept are left out.
-/

namespace Movement

/-- How many places down the movement takes the cursor. -/
def turns : Movement → Int
  | .up => -1
  | .down => 1
  | .complete => 0
  | .none => 0

/-- How many places down the word takes the cursor. -/
def turnsOf (word : List Movement) : Int :=
  word.count .down - word.count .up

theorem turnsOf_cons (movement : Movement) (word : List Movement) :
    turnsOf (movement :: word) = movement.turns + turnsOf word := by
  cases movement <;> simp [turnsOf, turns] <;> omega

theorem turnsOf_replicate (movement : Movement) (size : Nat) :
    turnsOf (List.replicate size movement) = size * movement.turns := by
  cases movement <;> simp [turnsOf, turns, List.count_replicate]

end Movement

namespace Session

/-! ## One place in a circle -/

section Circle

variable {size cursor : Nat}

theorem cursorDown_eq_emod (within : cursor < size) :
    (cursorDown size cursor : Int) = (cursor + 1) % size := by
  rw [cursorDown]
  split
  · have last : (cursor + 1 : Int) = size := by omega
    rw [last, Int.emod_self]
    rfl
  · rw [Int.emod_eq_of_lt (by omega) (by omega)]
    rfl

theorem cursorUp_eq_emod (within : cursor < size) :
    (cursorUp size cursor : Int) = (cursor - 1) % size := by
  rw [cursorUp]
  split
  -- In front of the first place the remainder is taken of a negative number.
  · rw [← Int.add_emod_right, Int.emod_eq_of_lt (by omega) (by omega)]
    omega
  · rw [Int.emod_eq_of_lt (by omega) (by omega)]
    omega

theorem cursorUp_cursorDown (within : cursor < size) :
    cursorUp size (cursorDown size cursor) = cursor := by
  rw [cursorDown, cursorUp]
  split <;> split <;> omega

theorem cursorDown_cursorUp (within : cursor < size) :
    cursorDown size (cursorUp size cursor) = cursor := by
  rw [cursorUp, cursorDown]
  split <;> split <;> omega

end Circle

/-- One place down in a circle, which one place up undoes. -/
def circle (size : Nat) : Equiv.Perm (Fin size) where
  toFun place := ⟨cursorDown size place, cursorDown_lt place.isLt⟩
  invFun place := ⟨cursorUp size place, cursorUp_lt place.isLt⟩
  left_inv place := Fin.ext (cursorUp_cursorDown place.isLt)
  right_inv place := Fin.ext (cursorDown_cursorUp place.isLt)

/-! ## Turns of a field -/

/-- The field with its cursor so many places further down the circle of candidates. -/
def turned (session : Session) (places : Int) : Session :=
  { session with cursor := ((session.cursor + places) % session.hint.candidates.length).toNat }

variable {session : Session}

theorem cursor_turned (places : Int) (within : session.cursor < session.hint.candidates.length) :
    ((session.turned places).cursor : Int) =
      (session.cursor + places) % session.hint.candidates.length :=
  Int.toNat_of_nonneg (Int.emod_nonneg _ (by omega))

theorem cursor_turned_lt (places : Int)
    (within : session.cursor < session.hint.candidates.length) :
    (session.turned places).cursor < session.hint.candidates.length := by
  have below := Int.emod_lt_of_pos (session.cursor + places)
    (by omega : (0 : Int) < session.hint.candidates.length)
  rw [← cursor_turned places within] at below
  exact Int.ofNat_lt.mp below

/-- A field is told by where its cursor stands, up to whole rounds. -/
theorem eq_turned_of_emod {cursor : Nat} {places : Int}
    (place : (cursor : Int) = (session.cursor + places) % session.hint.candidates.length) :
    { session with cursor := cursor } = session.turned places := by
  rw [turned, ← place, Int.toNat_natCast]

theorem turned_turned (first second : Int)
    (within : session.cursor < session.hint.candidates.length) :
    (session.turned first).turned second = session.turned (first + second) := by
  have place : (((session.turned first).turned second).cursor : Int) =
      ((session.turned first).cursor + second) % session.hint.candidates.length :=
    cursor_turned second (cursor_turned_lt first within)
  rw [cursor_turned first within, Int.emod_add_emod, Int.add_assoc] at place
  exact eq_turned_of_emod place

/-- Whole rounds lead back. -/
theorem turned_rounds (rounds : Int) (within : session.cursor < session.hint.candidates.length) :
    session.turned (session.hint.candidates.length * rounds) = session := by
  refine (eq_turned_of_emod ?_).symm
  rw [Int.add_mul_emod_self_left, Int.emod_eq_of_lt (by omega) (by omega)]

theorem turned_zero (within : session.cursor < session.hint.candidates.length) :
    session.turned 0 = session := by
  have still := turned_rounds 0 within
  rwa [Int.mul_zero] at still

/-! ## Words of moves -/

/-- In a choice each direction is a step along the circle of its candidates. -/
theorem move_of_choice (choice : session.hint.kind = .many) :
    session.move .down =
        { session with cursor := cursorDown session.hint.candidates.length session.cursor } ∧
      session.move .up =
        { session with cursor := cursorUp session.hint.candidates.length session.cursor } := by
  rcases session with ⟨text, hint, cursor⟩
  cases hint with
  | none => cases choice
  | single candidate => cases choice
  | many candidates two_le nodup => exact ⟨rfl, rfl⟩

theorem move_eq_turned (choice : session.hint.kind = .many)
    (within : session.cursor < session.hint.candidates.length) {movement : Movement}
    (moves : movement ≠ .complete) : session.move movement = session.turned movement.turns := by
  rcases move_of_choice choice with ⟨down, up⟩
  cases movement with
  | up => exact up.trans (eq_turned_of_emod (cursorUp_eq_emod within))
  | down => exact down.trans (eq_turned_of_emod (cursorDown_eq_emod within))
  | complete => exact absurd rfl moves
  | none => exact (turned_zero within).symm

theorem foldl_move_eq_turned (choice : session.hint.kind = .many)
    (within : session.cursor < session.hint.candidates.length) {word : List Movement}
    (moves : .complete ∉ word) :
    word.foldl move session = session.turned (Movement.turnsOf word) := by
  induction word generalizing session with
  | nil => exact (turned_zero within).symm
  | cons movement word ih =>
      rcases List.ne_and_not_mem_of_not_mem_cons moves with ⟨here, later⟩
      have behind := @ih (session.turned movement.turns) choice (cursor_turned_lt _ within) later
      rw [List.foldl_cons, move_eq_turned choice within (Ne.symm here), behind,
        turned_turned _ _ within, Movement.turnsOf_cons]

/-- Where there is nothing to choose from, a move changes nothing. -/
theorem move_eq_self (other : session.hint.kind ≠ .many) {movement : Movement}
    (moves : movement ≠ .complete) : session.move movement = session := by
  rcases session with ⟨text, hint, cursor⟩
  cases hint with
  | many candidates two_le nodup => exact absurd rfl other
  | none => cases movement <;> rfl
  | single candidate =>
      cases movement with
      | complete => exact absurd rfl moves
      | up => rfl
      | down => rfl
      | none => rfl

theorem foldl_move_eq_self (other : session.hint.kind ≠ .many) {word : List Movement}
    (moves : .complete ∉ word) : word.foldl move session = session := by
  induction word with
  | nil => rfl
  | cons movement word ih =>
      rcases List.ne_and_not_mem_of_not_mem_cons moves with ⟨here, later⟩
      rw [List.foldl_cons, move_eq_self other (Ne.symm here), ih later]

/-- A word of moves that accepts nothing takes the cursor of a choice down by the moves
down less the moves up, modulo the number of candidates, and leaves text and hint as they
are.  The two directions are permutations of the places, one the inverse of the other.  The
order of the moves does not matter, and as many equal moves as there are candidates lead
back.  A field without a choice stays as it is. -/
theorem moves_turn {word : List Movement} (moves : .complete ∉ word) (session : Session) :
    (session.hint.kind = .many → session.cursor < session.hint.candidates.length →
      (∃ cursor : Nat, cursor < session.hint.candidates.length ∧
        (cursor : Int) = (session.cursor + word.count .down - word.count .up) %
          session.hint.candidates.length ∧
        word.foldl move session = { session with cursor := cursor }) ∧
      (∀ place : Fin session.hint.candidates.length,
        { session with cursor := place }.move .down =
          { session with cursor := circle _ place } ∧
        { session with cursor := place }.move .up =
          { session with cursor := (circle _).symm place }) ∧
      (∀ other, word.Perm other → other.foldl move session = word.foldl move session) ∧
      ∀ movement ≠ .complete,
        (List.replicate session.hint.candidates.length movement).foldl move session = session) ∧
    (session.hint.kind ≠ .many → word.foldl move session = session) := by
  refine ⟨fun choice within => ⟨?_, ?_, ?_, ?_⟩, fun other => foldl_move_eq_self other moves⟩
  · refine ⟨_, cursor_turned_lt (Movement.turnsOf word) within, ?_,
      foldl_move_eq_turned choice within moves⟩
    rw [cursor_turned _ within, Movement.turnsOf, Int.add_sub_assoc]
  · intro place
    have atPlace : ({ session with cursor := place } : Session).hint.kind = .many := choice
    exact move_of_choice atPlace
  · intro other same
    have moves' : .complete ∉ other := fun member => moves (same.mem_iff.mpr member)
    rw [foldl_move_eq_turned choice within moves', foldl_move_eq_turned choice within moves,
      Movement.turnsOf, Movement.turnsOf, same.count_eq, same.count_eq]
  · intro movement step
    have moves' : .complete ∉ List.replicate session.hint.candidates.length movement :=
      fun member => step (List.eq_of_mem_replicate member).symm
    rw [foldl_move_eq_turned choice within moves', Movement.turnsOf_replicate,
      turned_rounds _ within]

theorem moves_turn_of_wrap :
    let candidates := ["n(".toList, "nh(".toList, "gnum(".toList]
    let session : Session := ⟨"si".toList, .many candidates (by decide) (by decide), 2⟩
    let word : List Movement := [.down, .up, .up, .none, .up, .up, .down, .up]
    .complete ∉ word ∧ session.hint.kind = .many ∧ session.cursor < 3 ∧
      (∃ cursor : Nat, cursor < 3 ∧ (cursor : Int) = (2 + 2 - 5) % 3 ∧
        word.foldl move session = { session with cursor := cursor }) := by
  intro candidates session word
  have moves : .complete ∉ word := by decide
  have turn := (moves_turn moves session).1 rfl (by decide)
  exact ⟨moves, rfl, by decide, turn.1⟩

end Session
end FormulaLine

import FormulaLine.Proofs.Editing

namespace FormulaLine
namespace Session

/-!
# Two ways to a completion

A line editor asks for the completions of a line by their number.  A person enters
the line, moves the cursor down and accepts.  Both ways lead to the same lines.

The editor's way does not depend on the field that is asked: every request records
the line, a line that is recorded already changes nothing, and the hint of a settled
field is that of its text.  The other way rests on one fact about the cursor.  It
comes back to the top only from the last candidate, so from the top it reaches each
candidate in as many steps as there are candidates above.
-/

variable {session : Session}

/-! ## Lines that are recorded -/

theorem text_update (session : Session) (text : List Char) : (session.update text).text = text := by
  rw [update]
  by_cases same : session.text = text
  · rw [if_pos same]
    exact same
  · rw [if_neg same]
    cases text <;> rfl

theorem update_update (session : Session) (text : List Char) :
    (session.update text).update text = session.update text := by
  rw [update, if_pos (session.text_update text)]

theorem Settled.update (settled : session.Settled) (text : List Char) :
    (session.update text).Settled :=
  settled.take (.update text)

/-- A recorded line is shown with its own hint. -/
theorem Settled.hint_update (settled : session.Settled) (text : List Char) :
    (session.update text).hint = Suggest.hint text := by
  rw [(settled.update text).hint_eq, text_update]

/-! ## The editor's way -/

/-- The line with the candidate of the given number behind it. -/
def completed? (text : List Char) (index : Nat) : Option (List Char) :=
  (Suggest.hint text).candidates[index]?.map fun candidate => text ++ candidate

/-- The answers to requests for completions of one line, each made of the field that
the request before has left. -/
def answers (session : Session) (text : List Char) :
    List Nat → List (Except OptionFault (Option (List Char)))
  | [] => []
  | index :: indices =>
    let (next, answer) := session.complete text index
    answer :: next.answers text indices

theorem Settled.complete_eq (settled : session.Settled) (text : List Char) (index : Nat) :
    session.complete text index = (session.update text, .ok (completed? text index)) := by
  have options : (session.update text).options text =
      (Suggest.hint text).candidates.map fun candidate => text ++ candidate := by
    rw [Session.options, settled.hint_update]
  rw [complete, options, completed?, ← List.getElem?_map]
  rfl

theorem Settled.answers_eq (settled : session.Settled) (text : List Char) (indices : List Nat) :
    session.answers text indices = indices.map fun index => .ok (completed? text index) := by
  induction indices generalizing session with
  | nil => rfl
  | cons index indices ih =>
      rw [answers, settled.complete_eq]
      exact congrArg _ (ih (settled.update text))

/-- However many requests are made for a line, it is recorded once. -/
theorem foldl_complete (session : Session) (text : List Char) (index : Nat) (indices : List Nat) :
    ((index :: indices).map (Step.complete text)).foldl take session = session.update text := by
  induction indices generalizing session index with
  | nil => rfl
  | cons next indices ih =>
      rw [List.map_cons, List.foldl_cons, ih]
      exact session.update_update text

/-! ## The cursor's way -/

theorem cursorDown_of_lt {size cursor : Nat} (below : cursor + 1 < size) :
    cursorDown size cursor = cursor + 1 := by
  rw [cursorDown, if_neg (by omega)]

/-- Above the last candidate the cursor moves to the next one. -/
theorem move_down_of_lt
    (below : session.cursor + 1 < session.hint.candidates.length) :
    session.move .down = { session with cursor := session.cursor + 1 } := by
  rcases session with ⟨text, hint, cursor⟩
  cases hint with
  | none => exact absurd below (Nat.not_lt_zero _)
  | single candidate => exact absurd (Nat.lt_of_succ_lt_succ below) (Nat.not_lt_zero _)
  | many candidates two_le nodup =>
      exact congrArg (Session.mk text (.many candidates two_le nodup)) (cursorDown_of_lt below)

theorem foldl_down (top : session.cursor = 0) {index : Nat}
    (within : index < session.hint.candidates.length) :
    (List.replicate index (Step.move .down)).foldl take session =
      { session with cursor := index } := by
  induction index with
  | zero => exact congrArg (Session.mk session.text session.hint) top
  | succ index ih =>
      -- The last move is taken apart, since the others are made from the top.
      rw [List.replicate_succ', List.foldl_append, ih (Nat.lt_of_succ_lt within)]
      exact move_down_of_lt within

/-- A line is entered, the cursor moves down a number of times, and the candidate
that it has come to is accepted. -/
def navigation (text : List Char) (index : Nat) : List Step :=
  .update text :: (List.replicate index (.move .down) ++ [.move .complete])

theorem text_run_navigation {text : List Char} {index : Nat}
    (within : index < (Suggest.hint text).candidates.length) :
    some (run (navigation text index)).text = completed? text index := by
  have top : (ofText text).cursor = 0 := rfl
  have reached := foldl_down top within
  have settled := settled_foldl (settled_ofText text) (List.replicate index (.move .down))
  rw [reached] at settled
  have selected := settled.selected?_eq.1.trans (List.getElem?_eq_getElem within)
  have entered : take empty (.update text) = ofText text := empty_update text
  rw [run, navigation, List.foldl_cons, entered, List.foldl_append, reached, completed?,
    List.getElem?_eq_getElem within]
  exact congrArg (fun next => some next.text) (move_complete_of_selected selected)

/-- Whatever has been done to the field, requests for the completions of a line are
answered by the line with each candidate of its hint, and by nothing past the last
one.  They leave the field as recording the line does.  The answers are the lines to
which the cursor leads in an empty field. -/
theorem complete_agrees (steps : List Step) (text : List Char) :
    (∀ indices, (run steps).answers text indices =
      indices.map fun index => .ok
        ((Suggest.hint text).candidates[index]?.map fun candidate => text ++ candidate)) ∧
    (∀ index indices, run (steps ++ (index :: indices).map (.complete text)) =
      (run steps).update text) ∧
    ∀ index < (Suggest.hint text).candidates.length,
      ((run steps).complete text index).2 = .ok (some (run (navigation text index)).text) := by
  have settled := settled_run steps
  refine ⟨settled.answers_eq text, ?_, ?_⟩
  · intro index indices
    rw [run, List.foldl_append]
    exact foldl_complete _ text index indices
  · intro index within
    rw [settled.complete_eq, text_run_navigation within]

end Session
end FormulaLine

import FormulaLine.Session

namespace FormulaLine
namespace Session

/-!
# Runs of an input field

Whatever is done to an input field, in whatever order, its hint stays the hint of
its text, and its cursor stays at a candidate.  A step does one of three things:
it resolves a text afresh, it leaves the field as it is, or it moves the cursor
within a choice (`take_cases`).  What holds of a run is read off these three.

Nothing of the past is left once the text changes: the field is then the one that
an empty field becomes when the text is entered into it.
-/

/-- What may be done to an input field. -/
inductive Step where
  | update (text : List Char)
  | move (movement : Movement)
  | append (suffix : List Char)
  | reset
  /-- A line editor asks for an option of a line. -/
  | complete (text : List Char) (index : Nat)

/-- The input field after a step. -/
def take (session : Session) : Step → Session
  | .update text => session.update text
  | .move movement => session.move movement
  | .append suffix => session.append suffix
  | .reset => empty
  | .complete text index => (session.complete text index).1

/-- The input field after the steps, taken from an empty one. -/
def run (steps : List Step) : Session :=
  steps.foldl take empty

/-! ## What a step can do -/

theorem empty_eq_ofText : empty = ofText [] := rfl

theorem update_cases (session : Session) (text : List Char) :
    session.update text = ofText text ∨ session.update text = session := by
  rw [update]
  by_cases same : session.text = text
  · exact Or.inr (if_pos same)
  · rw [if_neg same]
    cases text with
    | nil => exact Or.inl empty_eq_ofText
    | cons c rest => exact Or.inl rfl

/-- Entered into an empty field, a text is resolved afresh. -/
theorem empty_update (text : List Char) : empty.update text = ofText text := by
  cases text with
  | nil => rfl
  | cons c rest => rfl

/-- The cursor has moved by one place within the choice on offer. -/
def CursorMoved (session next : Session) : Prop :=
  session.hint.kind = .many ∧ ∃ cursor,
    (cursor = cursorUp session.hint.candidates.length session.cursor ∨
      cursor = cursorDown session.hint.candidates.length session.cursor) ∧
    next = { session with cursor := cursor }

/-- Accepting is the same under every hint: without a candidate nothing is
accepted. -/
theorem move_complete (session : Session) : session.move .complete = session.accept := by
  rcases session with ⟨text, hint, cursor⟩
  cases hint with
  | none => rfl
  | single candidate => rfl
  | many candidates two_le nodup => rfl

theorem accept_cases (session : Session) :
    (∃ text, session.accept = ofText text) ∨ session.accept = session := by
  rw [accept]
  cases session.selected? with
  | none => exact Or.inr rfl
  | some candidate => exact Or.inl ⟨session.text ++ candidate, rfl⟩

theorem move_cases (session : Session) (movement : Movement) :
    (∃ text, session.move movement = ofText text) ∨ session.move movement = session ∨
      CursorMoved session (session.move movement) := by
  rcases session with ⟨text, hint, cursor⟩
  cases movement with
  | none => exact Or.inr (Or.inl rfl)
  | complete =>
      rw [move_complete]
      rcases accept_cases ⟨text, hint, cursor⟩ with resolved | kept
      · exact Or.inl resolved
      · exact Or.inr (Or.inl kept)
  | up =>
      cases hint with
      | none => exact Or.inr (Or.inl rfl)
      | single candidate => exact Or.inr (Or.inl rfl)
      | many candidates two_le nodup => exact Or.inr (Or.inr ⟨rfl, _, Or.inl rfl, rfl⟩)
  | down =>
      cases hint with
      | none => exact Or.inr (Or.inl rfl)
      | single candidate => exact Or.inr (Or.inl rfl)
      | many candidates two_le nodup => exact Or.inr (Or.inr ⟨rfl, _, Or.inr rfl, rfl⟩)

/-- A step resolves a text afresh, changes nothing, or moves the cursor. -/
theorem take_cases (session : Session) (step : Step) :
    (∃ text, session.take step = ofText text) ∨ session.take step = session ∨
      CursorMoved session (session.take step) := by
  cases step with
  | move movement => exact session.move_cases movement
  | append suffix => exact Or.inl ⟨session.text ++ suffix, rfl⟩
  | reset => exact Or.inl ⟨[], empty_eq_ofText⟩
  | update text =>
      rcases session.update_cases text with resolved | kept
      · exact Or.inl ⟨text, resolved⟩
      · exact Or.inr (Or.inl kept)
  | complete text index =>
      rcases session.update_cases text with resolved | kept
      · exact Or.inl ⟨text, resolved⟩
      · exact Or.inr (Or.inl kept)

/-! ## What every field satisfies -/

theorem cursorUp_lt {size cursor : Nat} (within : cursor < size) : cursorUp size cursor < size := by
  rw [cursorUp]
  split <;> omega

theorem cursorDown_lt {size cursor : Nat} (within : cursor < size) :
    cursorDown size cursor < size := by
  rw [cursorDown]
  split <;> omega

/-- The hint is that of the text, and the cursor is at a candidate.  Without a
choice it is at rest. -/
structure Settled (session : Session) : Prop where
  hint_eq : session.hint = Suggest.hint session.text
  cursor_eq_zero : session.hint.kind ≠ .many → session.cursor = 0
  cursor_lt : session.hint.kind = .many → session.cursor < session.hint.candidates.length

theorem settled_ofText (text : List Char) : (ofText text).Settled where
  hint_eq := rfl
  cursor_eq_zero _ := rfl
  cursor_lt := by
    intro choice
    change 0 < (Suggest.hint text).candidates.length
    change (Suggest.hint text).kind = .many at choice
    cases hint : Suggest.hint text with
    | none => simp [hint, Hint.kind] at choice
    | single candidate => simp [hint, Hint.kind] at choice
    | many candidates two_le nodup => exact Nat.lt_of_lt_of_le Nat.zero_lt_two two_le

theorem Settled.cursorMoved {session next : Session} (settled : session.Settled)
    (moved : CursorMoved session next) : next.Settled := by
  rcases moved with ⟨choice, cursor, place, rfl⟩
  have within := settled.cursor_lt choice
  constructor
  · exact settled.hint_eq
  · exact fun other => absurd choice other
  · intro _
    rcases place with rfl | rfl
    · exact cursorUp_lt within
    · exact cursorDown_lt within

theorem Settled.take {session : Session} (settled : session.Settled) (step : Step) :
    (session.take step).Settled := by
  rcases session.take_cases step with ⟨text, resolved⟩ | kept | moved
  · rw [resolved]
    exact settled_ofText text
  · rw [kept]
    exact settled
  · exact settled.cursorMoved moved

theorem settled_foldl {session : Session} (settled : session.Settled) (steps : List Step) :
    (steps.foldl Session.take session).Settled := by
  induction steps generalizing session with
  | nil => exact settled
  | cons step steps ih => exact ih (settled.take step)

theorem settled_run (steps : List Step) : (run steps).Settled :=
  settled_foldl (settled_ofText []) steps

/-- The cursor of a settled field never points past the candidates. -/
theorem Settled.selected?_eq {session : Session} (settled : session.Settled) :
    session.selected? = session.hint.candidates[session.cursor]? ∧
      (session.hint.kind ≠ .none → ∃ candidate, session.selected? = some candidate) := by
  rcases session with ⟨text, hint, cursor⟩
  cases hint with
  | none => exact ⟨rfl, fun other => absurd rfl other⟩
  | single candidate =>
      have atRest : cursor = 0 := settled.cursor_eq_zero (by simp [Hint.kind])
      subst atRest
      exact ⟨rfl, fun _ => ⟨candidate, rfl⟩⟩
  | many candidates two_le nodup =>
      have within : cursor < candidates.length := settled.cursor_lt rfl
      exact ⟨rfl, fun _ => ⟨candidates[cursor], List.getElem?_eq_getElem within⟩⟩

theorem move_complete_of_selected {session : Session} {candidate : List Char}
    (selected : session.selected? = some candidate) :
    session.move .complete = ofText (session.text ++ candidate) := by
  rw [move_complete, accept, selected]
  rfl

/-- A step that changes the text leaves no trace of the past. -/
theorem take_eq_of_text_ne {session : Session} {step : Step}
    (changed : (session.take step).text ≠ session.text) :
    session.take step = empty.update (session.take step).text := by
  rcases session.take_cases step with ⟨text, resolved⟩ | kept | ⟨-, cursor, -, moved⟩
  · rw [resolved, empty_update]
    rfl
  · exact absurd (congrArg Session.text kept) changed
  · exact absurd (congrArg Session.text moved) changed

/-- After any steps the hint is that of the text, and the cursor is at one of its
candidates; unless there is none, a candidate is selected, and accepting appends
it.  A further step that changes the text gives the field of the new text. -/
theorem run_consistent (steps : List Step) :
    (run steps).Settled ∧
      (run steps).selected? = (run steps).hint.candidates[(run steps).cursor]? ∧
      ((run steps).hint.kind ≠ .none → ∃ candidate, (run steps).selected? = some candidate ∧
        ((run steps).move .complete).text = (run steps).text ++ candidate) ∧
      ∀ step, ((run steps).take step).text ≠ (run steps).text →
        (run steps).take step = empty.update ((run steps).take step).text := by
  have settled := settled_run steps
  rcases settled.selected?_eq with ⟨atCursor, offered⟩
  refine ⟨settled, atCursor, ?_, fun step changed => take_eq_of_text_ne changed⟩
  intro other
  rcases offered other with ⟨candidate, selected⟩
  exact ⟨candidate, selected, congrArg Session.text (move_complete_of_selected selected)⟩

end Session
end FormulaLine

import FormulaLine.Proofs.Closing
import FormulaLine.Proofs.JoinedNames
import FormulaLine.Proofs.Seams

namespace FormulaLine

/-!
# Completing comes to an end

A completion can be followed by another one.  The call of a function opens a parenthesis,
and an open parenthesis is closed.  But the last token of a line that ends with a
parenthesis shows that parenthesis, and no supported name has one; the table has nothing
for such a token.  So how often a line can still be completed is known beforehand
(`completionsLeft`): as often as it leaves a parenthesis open, once if it is empty, and
twice if it ends with the beginning of a name, for the name and for its parenthesis.  The
second time falls away where a surplus parenthesis closes what the name opens.

A completion takes one off this number.  Nothing else changes the text, and a line has a
hint as long as the number is not zero.
-/

theorem Hint.kind_eq_none_iff {hint : Hint} : hint.kind = .none ↔ hint = .none := by
  cases hint <;> simp [Hint.kind]

namespace Suggest

open Guard Split

variable {text : List Char}

/-! ## Behind a parenthesis -/

theorem eq_of_isParenthesis {c : Char} (parenthesis : isParenthesis c = true) :
    c = '(' ∨ c = ')' := by
  simpa [isParenthesis] using parenthesis

theorem parenthesis_not_mem_spelling {c : Char} (parenthesis : isParenthesis c = true)
    (f : Builtin) : c ∉ f.spelling := by
  rcases eq_of_isParenthesis parenthesis with rfl | rfl
  · exact opening_not_mem_spelling f
  · cases f <;> decide

/-- The last token of a line that ends with a parenthesis shows it. -/
theorem exists_getLast?_split_concat {c : Char} (parenthesis : isParenthesis c = true)
    (before : List Char) :
    ∃ token, (split .multiplication (before ++ [c])).getLast? = some token ∧ c ∈ token := by
  have either := eq_of_isParenthesis parenthesis
  have other : c ∉ finishing := by rcases either with rfl | rfl <;> decide
  have plain : added c = [c] := by rcases either with rfl | rfl <;> decide
  by_cases first : before = []
  · subst first
    refine ⟨[c], ?_, List.mem_singleton_self c⟩
    rcases either with rfl | rfl <;> decide
  · rcases split_concat .multiplication first (unfinished_of_not_mem_finishing other before) with
      ⟨tokens, last, -, ⟨-, joined⟩ | apart⟩
    · refine ⟨last ++ [c], ?_, List.mem_append_right last (List.mem_singleton_self c)⟩
      rw [joined, plain, List.getLast?_concat]
    · refine ⟨[c], ?_, List.mem_singleton_self c⟩
      rw [apart, plain, List.append_cons, List.getLast?_concat]

/-- Behind a parenthesis that leaves nothing open there is nothing to complete. -/
theorem hint_behind_parenthesis {c : Char} (parenthesis : isParenthesis c = true)
    {before : List Char} (closed : leavesOpen (before ++ [c]) = false) :
    hint (before ++ [c]) = .none := by
  rcases exists_getLast?_split_concat parenthesis before with ⟨token, last, member⟩
  have unknown : ∀ name ∈ Vocabulary.functions, ¬ token <+: name := by
    intro name supported begins
    rcases List.mem_map.mp supported with ⟨f, -, rfl⟩
    exact parenthesis_not_mem_spelling parenthesis f (begins.subset member)
  rw [hint_of_getLast? ((leavesOpen_eq_false_iff _).mp closed) last, completionOf?_eq_none unknown]
  rfl

/-- The suggested example is complete. -/
theorem hint_emptySuggestion : hint Vocabulary.emptySuggestion = .none := by
  have last : (split .multiplication Vocabulary.emptySuggestion).getLast? =
      some Vocabulary.emptySuggestion := by
    decide
  have unknown : ∀ name ∈ Vocabulary.functions, ¬ Vocabulary.emptySuggestion <+: name := by decide
  rw [hint_of_getLast? (by decide) last, completionOf?_eq_none unknown]
  rfl

/-! ## How often a line can be completed -/

/-- How often a line can still be completed. -/
def completionsLeft (text : List Char) : Nat :=
  if leavesOpen text then openCount text
  else if (hint text).kind = .none then 0
  else if text = [] ∨ text.count '(' < text.count ')' then 1
  else 2

theorem completionsLeft_of_leavesOpen (opened : leavesOpen text = true) :
    completionsLeft text = openCount text :=
  if_pos opened

theorem completionsLeft_of_none (complete : hint text = .none) : completionsLeft text = 0 := by
  have closed : leavesOpen text = false := by
    apply Bool.eq_false_iff.mpr
    intro opened
    rw [hint_of_leavesOpen opened] at complete
    cases complete
  rw [completionsLeft, closed, complete]
  rfl

theorem completionsLeft_of_some (closed : leavesOpen text = false)
    (some : (hint text).kind ≠ .none) :
    completionsLeft text = if text = [] ∨ text.count '(' < text.count ')' then 1 else 2 := by
  rw [completionsLeft, closed, if_neg Bool.false_ne_true, if_neg some]

theorem completionsLeft_le (text : List Char) : completionsLeft text ≤ openCount text + 2 := by
  rw [completionsLeft]
  split_ifs <;> omega

/-- A line has a hint as long as it can be completed. -/
theorem hint_of_completionsLeft_eq_zero (spent : completionsLeft text = 0) : hint text = .none := by
  cases opened : leavesOpen text with
  | true =>
      rw [completionsLeft_of_leavesOpen opened] at spent
      exact absurd ((leavesOpen_iff text).mp opened) (by omega)
  | false =>
      by_cases some : (hint text).kind = .none
      · exact Hint.kind_eq_none_iff.mp some
      · rw [completionsLeft_of_some opened some] at spent
        split at spent <;> cases spent

/-- Behind a parenthesis only what is left open can be completed. -/
theorem completionsLeft_concat {c : Char} (parenthesis : isParenthesis c = true)
    (before : List Char) : completionsLeft (before ++ [c]) = openCount (before ++ [c]) := by
  cases opened : leavesOpen (before ++ [c]) with
  | true => exact completionsLeft_of_leavesOpen opened
  | false =>
      have none : ¬ 0 < openCount (before ++ [c]) := by
        rw [← leavesOpen_iff, opened]
        exact Bool.false_ne_true
      rw [completionsLeft_of_none (hint_behind_parenthesis parenthesis opened)]
      omega

theorem completionsLeft_append_closing (opened : leavesOpen text = true) :
    completionsLeft text = completionsLeft (text ++ [')']) + 1 := by
  have left : openCount (text ++ [')']) = openCount text - 1 := openCount_append_closing text 1
  have positive := (leavesOpen_iff text).mp opened
  rw [completionsLeft_of_leavesOpen opened, completionsLeft_concat rfl, left]
  omega

/-- The rest of a name opens one parenthesis, which a surplus one of the line may have
closed already. -/
theorem completionsLeft_append_call (nonempty : text ≠ []) (closed : leavesOpen text = false)
    (some : (hint text).kind ≠ .none) {rest : List Char}
    (free : ∀ c, isParenthesis c = true → c ∉ rest) :
    completionsLeft text = completionsLeft (text ++ (rest ++ ['('])) + 1 := by
  have left : openCount (text ++ (rest ++ ['('])) = text.count '(' + 1 - text.count ')' := by
    rw [openCount_append, List.count_append, List.count_append,
      List.count_eq_zero_of_not_mem (free '(' rfl), List.count_eq_zero_of_not_mem (free ')' rfl)]
    rfl
  have fewer := (leavesOpen_eq_false_iff text).mp closed
  rw [← List.append_assoc] at left ⊢
  rw [completionsLeft_concat rfl, left, completionsLeft_of_some closed some]
  by_cases surplus : text.count '(' < text.count ')'
  · rw [if_pos (Or.inr surplus)]
    omega
  · rw [if_neg (not_or.mpr ⟨nonempty, surplus⟩)]
    omega

/-- A completion takes one off. -/
theorem completionsLeft_append {candidate : List Char}
    (offered : candidate ∈ (hint text).candidates) :
    completionsLeft text = completionsLeft (text ++ candidate) + 1 := by
  cases opened : leavesOpen text with
  | true =>
      rw [hint_of_leavesOpen opened] at offered
      have closing : candidate = [')'] := List.mem_singleton.mp offered
      rw [closing]
      exact completionsLeft_append_closing opened
  | false =>
      have some : (hint text).kind ≠ .none := by
        intro kind
        rw [Hint.kind_eq_none_iff.mp kind] at offered
        cases offered
      by_cases nonempty : text = []
      · subst nonempty
        have suggestion : candidate = Vocabulary.emptySuggestion := List.mem_singleton.mp offered
        rw [suggestion, List.nil_append, completionsLeft_of_none hint_emptySuggestion]
        rfl
      rcases hint_cases nonempty opened with none | ⟨key, found⟩
      · rw [none] at some
        exact absurd rfl some
      · rcases exists_of_mem_candidates found offered with ⟨f, rest, name, rfl⟩
        refine completionsLeft_append_call nonempty opened some fun c parenthesis member => ?_
        exact parenthesis_not_mem_spelling parenthesis f (name ▸ List.mem_append_right key member)

end Suggest

namespace Session

open Suggest

variable {session : Session}

/-! ## Words of movements -/

/-- How many of the movements that accept a candidate change the text. -/
def acceptances (session : Session) : List Movement → Nat
  | [] => 0
  | movement :: word =>
    (if movement = .complete ∧ (session.move movement).text ≠ session.text then 1 else 0) +
      (session.move movement).acceptances word

theorem text_move {movement : Movement} (moves : movement ≠ .complete) :
    (session.move movement).text = session.text := by
  rcases session with ⟨text, hint, cursor⟩
  cases movement with
  | complete => exact absurd rfl moves
  | none => rfl
  | up => cases hint <;> rfl
  | down => cases hint <;> rfl

theorem move_of_none (complete : session.hint = .none) (movement : Movement) :
    session.move movement = session := by
  rw [move.eq_def, complete]
  cases movement <;> rfl

theorem foldl_move_of_none (complete : session.hint = .none) (word : List Movement) :
    word.foldl move session = session :=
  List.foldl_fixed' (move_of_none complete) word

/-- A settled field accepts one of the candidates of its line, if it has a hint. -/
theorem Settled.move_complete_cases (settled : session.Settled) :
    session.hint = .none ∨ ∃ candidate ∈ (Suggest.hint session.text).candidates,
      session.move .complete = ofText (session.text ++ candidate) := by
  rcases settled.selected?_eq with ⟨atCursor, offered⟩
  by_cases kind : session.hint.kind = .none
  · exact Or.inl (Hint.kind_eq_none_iff.mp kind)
  · rcases offered kind with ⟨candidate, selected⟩
    rw [selected, settled.hint_eq] at atCursor
    exact Or.inr ⟨candidate, List.mem_of_getElem? atCursor.symm,
      move_complete_of_selected selected⟩

/-- Of the movements that accept a candidate, as many change the text as the line can be
completed, and each of them takes one off that number. -/
theorem Settled.acceptances_eq (settled : session.Settled) (word : List Movement) :
    session.acceptances word = min (word.count .complete) (completionsLeft session.text) ∧
      completionsLeft (word.foldl move session).text =
        completionsLeft session.text - word.count .complete := by
  -- Over all settled fields: what is left behind a movement is counted from the field it leads to.
  induction word generalizing session with
  | nil => exact ⟨(Nat.zero_min _).symm, rfl⟩
  | cons movement word ih =>
      rw [acceptances, List.foldl_cons]
      rcases ih (settled_move settled movement) with ⟨counted, left⟩
      rw [counted, left]
      by_cases accepts : movement = .complete
      · subst accepts
        rw [List.count_cons_self]
        rcases settled.move_complete_cases with complete | ⟨candidate, offered, next⟩
        · have spent : completionsLeft session.text = 0 :=
            completionsLeft_of_none (settled.hint_eq ▸ complete)
          rw [move_of_none complete, if_neg (fun both => both.2 rfl), spent]
          exact ⟨by omega, by omega⟩
        · have taken := completionsLeft_append offered
          have reached : (session.move .complete).text = session.text ++ candidate := by
            rw [next]
            rfl
          have changed : session.text ++ candidate ≠ session.text := by
            intro same
            rw [same] at taken
            omega
          rw [reached, if_pos ⟨rfl, changed⟩]
          exact ⟨by omega, by omega⟩
      · rw [if_neg (fun both => accepts both.1), List.count_cons_of_ne accepts, text_move accepts,
          Nat.zero_add]
        exact ⟨rfl, rfl⟩

/-- Whatever movements are made, at most two more completions than parentheses are left open
change the text.  After so many the hint is used up, and no further movement changes
anything. -/
theorem completions_end (steps : List Step) (word : List Movement) :
    (run steps).acceptances word ≤ openCount (run steps).text + 2 ∧
      (openCount (run steps).text + 2 ≤ word.count .complete →
        (word.foldl move (run steps)).hint = .none ∧
          ∀ further : List Movement,
            further.foldl move (word.foldl move (run steps)) = word.foldl move (run steps)) := by
  have settled := settled_run steps
  rcases settled.acceptances_eq word with ⟨counted, left⟩
  have most := completionsLeft_le (run steps).text
  constructor
  · omega
  · intro many
    have spent : completionsLeft (word.foldl move (run steps)).text = 0 := by omega
    have complete : (word.foldl move (run steps)).hint = .none := by
      rw [(settled_foldl_move settled word).hint_eq]
      exact hint_of_completionsLeft_eq_zero spent
    exact ⟨complete, foldl_move_of_none complete⟩

theorem completions_end_of_name :
    let steps := [Step.update "x)2(lo".toList]
    let word : List Movement := [.down, .complete, .up, .complete]
    openCount (run steps).text + 2 ≤ word.count .complete ∧
      (run steps).acceptances word ≤ openCount (run steps).text + 2 ∧
      (word.foldl move (run steps)).hint = .none ∧
      ∀ further : List Movement,
        further.foldl move (word.foldl move (run steps)) = word.foldl move (run steps) := by
  intro steps word
  have many : openCount (run steps).text + 2 ≤ word.count .complete := by decide
  rcases completions_end steps word with ⟨most, ended⟩
  exact ⟨many, most, ended many⟩

end Session
end FormulaLine

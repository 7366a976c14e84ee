import FormulaLine.Command.Dialogue
import FormulaLine.Proofs.Completing
import FormulaLine.Proofs.Printing

namespace FormulaLine
namespace Command
namespace Dialogue

/-!
# Lines of a dialogue

The input field lives through the whole dialogue, and the hint of a line is read off
it.  Nothing of the lines before shows in a reply all the same.  A settled field that
records a line has the hint of that line, and it is settled again; so each line finds
a settled field, whatever the lines before it were, and is answered as it would be by
itself.

What was done to the field before the dialogue does not matter either.

A record is printed as a text that tells its tokens, its formula and its hint: records
that are printed alike are the same.
-/

/-- The reply to a trimmed line that is read by itself. -/
def record (line : List Char) : Reply :=
  .fields [
    ("tokens".toList, .texts (Split.split .multiplication line)),
    ("processed".toList, .text (Split.explicit line)),
    ("hint".toList, .text (Suggest.hint line).display)]

/-- The text that the record of a trimmed line is printed as. -/
def shown (format : Format) (line : List Char) : List Char :=
  recordText format (Split.split .multiplication line) (Split.explicit line)
    (Suggest.hint line).display

/-- Whether one of the lines ends the dialogue. -/
def isEnded (lines : List (List Char)) : Bool :=
  (lines.map Text.trim).any isFarewell

/-- A line says farewell by one of two words, in letters of either case. -/
theorem isFarewell_iff (line : List Char) :
    isFarewell line = true ↔
      line.map Char.toLower = "quit".toList ∨ line.map Char.toLower = "exit".toList := by
  simp [isFarewell, farewells]

theorem print_record (format : Format) (line : List Char) :
    (record line).print format = shown format line :=
  print_fields format _ _ _

/-- A token that holds an apostrophe is quoted otherwise. -/
example : (record "2(x'".toList).print .human =
    "tokens: ['2', \"(x'\"]\nprocessed: 2*(x'\nhint: )\n".toList := by
  decide +kernel

example : (record "2(x".toList).print .json =
    ("\x7b\n  \"tokens\": [\n    \"2\",\n    \"(x\"\n  ],\n" ++
      "  \"processed\": \"2*(x\",\n  \"hint\": \")\"\n\x7d\n").toList := by
  decide +kernel

/-- Lines whose records are printed alike have the same record. -/
theorem record_eq_of_shown_eq {format : Format} {line line' : List Char}
    (same : shown format line = shown format line') : record line = record line' := by
  have goes : Split.split .multiplication line = Split.split .multiplication line' →
      Split.explicit line = Split.explicit line' := by
    intro tokens
    rw [Split.explicit, tokens, Split.explicit]
  rcases recordText_inj goes same with ⟨tokens, hint⟩
  rw [record, goes tokens, tokens, hint, record]

theorem replyTo_update {session : Session} (settled : session.Settled) (line : List Char) :
    replyTo (session.update line) line = record line := by
  rw [replyTo, settled.hint_update, record]

/-- A settled field answers a line as if the line were the only one. -/
theorem answer?_eq {session : Session} (settled : session.Settled) (line : List Char) :
    answer? session line =
      if isFarewell (Text.trim line) then none
      else some (session.update (Text.trim line), record (Text.trim line)) := by
  rw [← replyTo_update settled]
  rfl

theorem answered_cons_of_farewell {line : List Char} (farewell : isFarewell (Text.trim line) = true)
    (lines : List (List Char)) : answered (line :: lines) = [] := by
  rw [answered, List.map_cons, List.takeWhile_cons_of_neg]
  simp [farewell]

theorem answered_cons_of_formula {line : List Char} (formula : isFarewell (Text.trim line) = false)
    (lines : List (List Char)) : answered (line :: lines) = Text.trim line :: answered lines := by
  rw [answered, List.map_cons, List.takeWhile_cons_of_pos]
  · rfl
  · simp [formula]

/-- From a settled field each line gets its own record, up to the end. -/
theorem converse_eq {session : Session} (settled : session.Settled) (lines : List (List Char)) :
    converse session lines = ((answered lines).map record, isEnded lines) := by
  induction lines generalizing session with
  | nil => rfl
  | cons line lines ih =>
      rw [converse, answer?_eq settled, isEnded, List.map_cons, List.any_cons]
      cases farewell : isFarewell (Text.trim line) with
      | true =>
          rw [answered_cons_of_farewell farewell]
          rfl
      | false =>
          rw [answered_cons_of_formula farewell, if_neg Bool.false_ne_true]
          have rest := ih (settled.update (Text.trim line))
          simp only [rest, List.map_cons, Bool.false_or, isEnded]

/-- A line is trimmed, and `quit` and `exit` in either case say farewell.  Whatever has
been done to the field, be it by lines or by a line editor, any other line is answered
by its own record.  A dialogue therefore answers the lines before the first farewell,
each by its record and in their order, and nothing else.  What is printed are these
records, in either format, between the greeting and the last invitation; and each
printed record tells the tokens, the formula and the hint. -/
theorem converse_forgets (steps : List Session.Step) (lines : List (List Char)) :
    (∀ line, Text.Trims line (Text.trim line) ∧
      (isFarewell line = true ↔
        line.map Char.toLower = "quit".toList ∨ line.map Char.toLower = "exit".toList)) ∧
    (∀ line, (answer? (Session.run steps) line).map Prod.snd =
      if isFarewell (Text.trim line) then none else some (record (Text.trim line))) ∧
    converse (Session.run steps) lines = ((answered lines).map record, isEnded lines) ∧
    (∀ format, transcript format lines =
      greeting ++ ((answered lines).flatMap fun line => invitation ++ shown format line) ++
        invitation ++ if isEnded lines then [] else ['\n']) ∧
    ∀ format line line', shown format line = shown format line' → record line = record line' := by
  have settled := Session.settled_run steps
  refine ⟨fun line => ⟨Text.trims_trim line, isFarewell_iff line⟩, fun line => ?_,
    converse_eq settled lines, fun format => ?_, fun format line line' => record_eq_of_shown_eq⟩
  · rw [answer?_eq settled]
    split <;> rfl
  · have replies : converse .empty lines = ((answered lines).map record, isEnded lines) :=
      converse_eq (Session.settled_run []) lines
    rw [transcript, replies]
    simp only [List.flatMap_map, print_record]

end Dialogue
end Command
end FormulaLine

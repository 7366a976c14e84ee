import FormulaLine.Command.Action
import FormulaLine.Proofs.Guarding

namespace FormulaLine

/-!
# Failures that are not reported

Nothing is known here of the system that reads formulas, but what it is documented to
do: it fails in one of the ways that belong to the operations of a formula.  The
program takes most of these for errors of the formula.  A missing member and a
division by zero are not among them and are passed on, and so is whatever goes wrong
while an accepted value is printed.

Reading a text, asking whether it is a function and checking it share their failures
but for the last kind, which only a check can come to.
-/

namespace Interpreter

variable {α : Type} (I : Interpreter α)

/-- Reading fails in the ways that are documented for the operations of a formula, which
may be any typed formula with its multiplications written. -/
def FailsOrdinarily : Prop :=
  ∀ text failure, text.all Guard.isAllowed = true →
    I.read (Split.explicit text) = .error failure → failure.kind ≠ .other

/-- The text is handed on to be read, and reading fails. -/
structure ReadFails (limit : Int) (text : List Char) (failure : Failure) : Prop where
  nonempty : text ≠ []
  accepted : Guard.refusal? limit text = none
  failed : I.read (Split.explicit text) = .error failure

/-- The text is a function that cannot be printed. -/
def Unprintable (limit : Int) (text : List Char) (failure : Failure) : Prop :=
  ∃ value, I.parse limit text = .ok (some value) ∧ I.print value = .error failure

/-- Reading the text, asking whether it is a function and checking it all end in an
answer or in an error that is reported. -/
structure IsClosed (limit : Int) (text : List Char) : Prop where
  parse : ∀ failure, I.parse limit text ≠ .error (.stopped failure)
  isFunction : ∃ answer, I.isFunction limit text = .ok answer
  check : ∀ format, ∃ outcome, Command.Action.runCheck I limit format text = .ok outcome ∧
    (outcome.code = 0 ∨ outcome.code = 1)

section Stopped

variable {I} {limit : Int} {format : Command.Format} {text : List Char} {failure : Failure}

theorem accept_ne_stopped {formula : List Char} {value : Option α} :
    I.accept formula value ≠ .error (.stopped failure) := by
  intro stopped
  unfold accept at stopped
  split at stopped
  · cases stopped
  · dsimp only at stopped
    repeat' split at stopped
    all_goals cases stopped

theorem ReadFails.parse_eq (fails : I.ReadFails limit text failure) :
    I.parse limit text =
      if failure.kind.blamesFormula then .error (.unreadable (Split.explicit text) failure)
      else .error (.stopped failure) := by
  rw [parse, Formula.parseBy_of_accepted fails.nonempty fails.accepted, readExplicit, fails.failed]
  dsimp only
  split <;> rfl

theorem readExplicit_eq_stopped {formula : List Char}
    (stopped : I.readExplicit formula = .error (.stopped failure)) :
    I.read formula = .error failure ∧ failure.kind.blamesFormula = false := by
  rw [readExplicit] at stopped
  cases read : I.read formula with
  | ok value =>
    rw [read] at stopped
    exact absurd stopped accept_ne_stopped
  | error found =>
    rw [read] at stopped
    dsimp only at stopped
    split at stopped
    · cases stopped
    · rename_i unblamed
      cases stopped
      exact ⟨rfl, Bool.eq_false_iff.mpr unblamed⟩

theorem parse_eq_stopped_iff :
    I.parse limit text = .error (.stopped failure) ↔
      I.ReadFails limit text failure ∧ failure.kind.blamesFormula = false := by
  constructor
  · intro parsed
    have stopped := (@Formula.parseBy_eq_map_iff _ I.readExplicit limit text
      (.error (.stopped failure)) (fun refusal same => by cases same)).mp parsed
    rcases stopped with ⟨nonempty, accepted, stopped⟩
    rcases readExplicit_eq_stopped stopped with ⟨failed, unblamed⟩
    exact ⟨⟨nonempty, accepted, failed⟩, unblamed⟩
  · rintro ⟨fails, unblamed⟩
    rw [fails.parse_eq, unblamed]
    rfl

theorem isFunction_eq_error_iff :
    I.isFunction limit text = .error failure ↔ I.parse limit text = .error (.stopped failure) := by
  rw [isFunction]
  split <;> simp_all

/-- A check fails as reading does, or while the value is printed. -/
theorem runCheck_eq_error_iff :
    Command.Action.runCheck I limit format text = .error failure ↔
      I.parse limit text = .error (.stopped failure) ∨ I.Unprintable limit text failure := by
  rw [Unprintable, Command.Action.runCheck]
  cases parsed : I.parse limit text with
  | error error => cases error <;> simp
  | ok read =>
    cases read with
    | none => simp [Command.Action.shown, bind, Except.bind, pure, Except.pure]
    | some value =>
      cases printed : I.print value <;>
        simp [Command.Action.shown, printed, bind, Except.bind, pure, Except.pure]

/-- A check that comes to its end tells by its exit code whether the text is a
function. -/
theorem code_of_runCheck {outcome : Command.Outcome}
    (checked : Command.Action.runCheck I limit format text = .ok outcome) :
    outcome.code = 0 ∧ I.isFunction limit text = .ok true ∨
      outcome.code = 1 ∧ I.isFunction limit text = .ok false := by
  rw [Command.Action.runCheck] at checked
  rw [isFunction]
  split at checked
  · cases checked
  · rename_i error other parsed
    cases checked
    refine .inr ⟨rfl, ?_⟩
    rw [parsed]
    split
    · contradiction
    · rename_i same
      cases same
      exact absurd rfl (other _)
    · rfl
  · rename_i read parsed
    cases printed : Command.Action.shown I read with
    | error failure =>
      rw [printed] at checked
      cases checked
    | ok expression =>
      rw [printed] at checked
      cases checked
      exact .inl ⟨rfl, by rw [parsed]⟩

/-- A formula that cannot be read is refused as such. -/
theorem ReadFails.refused (fails : I.ReadFails limit text failure)
    (blamed : failure.kind.blamesFormula = true) :
    I.parse limit text = .error (.unreadable (Split.explicit text) failure) ∧
      I.isFunction limit text = .ok false ∧
      ∀ format, ∃ outcome, Command.Action.runCheck I limit format text = .ok outcome ∧
        outcome.code = 1 := by
  have refused : I.parse limit text = .error (.unreadable (Split.explicit text) failure) := by
    rw [fails.parse_eq, blamed]
    rfl
  refine ⟨refused, ?_, fun format => ?_⟩
  · rw [isFunction, refused]
  · rw [Command.Action.runCheck, refused]
    exact ⟨_, rfl, rfl⟩

/-- Among the failures that are documented, a missing member and a division by zero are
not taken for errors of the formula. -/
theorem blamesFormula_eq_false_iff (ordinary : I.FailsOrdinarily)
    (fails : I.ReadFails limit text failure) :
    failure.kind.blamesFormula = false ↔
      failure.kind = .member ∨ failure.kind = .zeroDivision := by
  have allowed := ((Formula.refusal?_eq_none_iff limit text).mp fails.accepted).2.1
  have documented := ordinary text failure allowed fails.failed
  cases kind : failure.kind <;> simp_all [FailureKind.blamesFormula]

end Stopped

/-- A text is closed unless reading it comes to a missing member or to a division by
zero, or its value cannot be printed.  Such a failure to read is what reading, asking and
checking all end in; with any other the formula is refused.  A value that cannot be
printed is a function all the same, and only the check fails.  A check that comes to its
end reports by its exit code what asking answers. -/
theorem isClosed_iff (ordinary : I.FailsOrdinarily) (limit : Int) (text : List Char) :
    (I.IsClosed limit text ↔
      (∀ failure, I.ReadFails limit text failure →
        failure.kind ≠ .member ∧ failure.kind ≠ .zeroDivision) ∧
      ∀ failure, ¬ I.Unprintable limit text failure) ∧
    (∀ failure, I.ReadFails limit text failure →
      (failure.kind = .member ∨ failure.kind = .zeroDivision →
        I.parse limit text = .error (.stopped failure) ∧
        I.isFunction limit text = .error failure ∧
        ∀ format, Command.Action.runCheck I limit format text = .error failure) ∧
      (¬ (failure.kind = .member ∨ failure.kind = .zeroDivision) →
        I.parse limit text = .error (.unreadable (Split.explicit text) failure) ∧
        I.isFunction limit text = .ok false ∧
        ∀ format, ∃ outcome, Command.Action.runCheck I limit format text = .ok outcome ∧
          outcome.code = 1)) ∧
    (∀ failure, I.Unprintable limit text failure →
      I.isFunction limit text = .ok true ∧
        ∀ format, Command.Action.runCheck I limit format text = .error failure) ∧
    ∀ format outcome, Command.Action.runCheck I limit format text = .ok outcome →
      outcome.code = 0 ∧ I.isFunction limit text = .ok true ∨
        outcome.code = 1 ∧ I.isFunction limit text = .ok false := by
  have blamed := fun failure fails => @blamesFormula_eq_false_iff _ I limit text failure ordinary fails
  refine ⟨⟨?_, ?_⟩, ?_, ?_, fun format outcome => code_of_runCheck⟩
  · intro closed
    constructor
    · intro failure fails
      apply not_or.mp
      intro passedOn
      exact closed.parse failure
        (parse_eq_stopped_iff.mpr ⟨fails, (blamed failure fails).mpr passedOn⟩)
    · intro failure unprintable
      rcases closed.check .human with ⟨outcome, checked, -⟩
      rw [runCheck_eq_error_iff.mpr (.inr unprintable)] at checked
      cases checked
  · rintro ⟨read, printed⟩
    have parsed : ∀ failure, I.parse limit text ≠ .error (.stopped failure) := by
      intro failure stopped
      rcases parse_eq_stopped_iff.mp stopped with ⟨fails, unblamed⟩
      exact not_or.mpr (read failure fails) ((blamed failure fails).mp unblamed)
    refine ⟨parsed, ?_, ?_⟩
    · cases answered : I.isFunction limit text with
      | ok answer => exact ⟨answer, rfl⟩
      | error failure => exact absurd (isFunction_eq_error_iff.mp answered) (parsed failure)
    · intro format
      cases checked : Command.Action.runCheck I limit format text with
      | ok outcome => exact ⟨outcome, rfl, (code_of_runCheck checked).imp And.left And.left⟩
      | error failure =>
        rcases runCheck_eq_error_iff.mp checked with stopped | unprintable
        · exact absurd stopped (parsed failure)
        · exact absurd unprintable (printed failure)
  · intro failure fails
    constructor
    · intro passedOn
      have stopped := parse_eq_stopped_iff.mpr ⟨fails, (blamed failure fails).mpr passedOn⟩
      exact ⟨stopped, isFunction_eq_error_iff.mpr stopped,
        fun format => runCheck_eq_error_iff.mpr (.inl stopped)⟩
    · intro ofFormula
      apply fails.refused
      apply Bool.eq_true_of_not_eq_false
      exact fun unblamed => ofFormula ((blamed failure fails).mp unblamed)
  · intro failure unprintable
    refine ⟨?_, fun format => runCheck_eq_error_iff.mpr (.inr unprintable)⟩
    rcases unprintable with ⟨value, parsed, -⟩
    rw [isFunction, parsed]

/-! ## The interpreter that runs -/

theorem standard_failsOrdinarily : Formula.standard.FailsOrdinarily := by
  intro text failure allowed failed
  have found : ∃ fault : Fault, fault.failure = failure := by
    change Formula.termOf (Formula.valueOf (Split.explicit text)) = _ at failed
    unfold Formula.termOf at failed
    split at failed <;> cases failed
    exact ⟨_, rfl⟩
  rcases found with ⟨fault, rfl⟩
  cases fault <;> simp [Fault.failure, Fault.kind]

/-- A member that the guard lets through is passed on, and a sum without its second
term is refused. -/
theorem isClosed_iff_of_member :
    Formula.standard.FailsOrdinarily ∧
      (∃ failure, Formula.standard.ReadFails Guard.defaultLimit "x.π".toList failure ∧
        failure.kind = .member ∧
        Formula.standard.isFunction Guard.defaultLimit "x.π".toList = .error failure) ∧
      (∃ failure, Formula.standard.ReadFails Guard.defaultLimit "x+".toList failure ∧
        failure.kind = .grammar ∧
        Formula.standard.isFunction Guard.defaultLimit "x+".toList = .ok false) := by
  have ends := fun text failure fails => (Formula.standard.isClosed_iff
    standard_failsOrdinarily Guard.defaultLimit text).2.1 failure fails
  have member : Formula.standard.ReadFails Guard.defaultLimit "x.π".toList
      (Fault.noMember "'Symbol' object" ['π']).failure := ⟨by decide, by decide, rfl⟩
  have malformed : Formula.standard.ReadFails Guard.defaultLimit "x+".toList
      Fault.malformed.failure := ⟨by decide, by decide, rfl⟩
  refine ⟨standard_failsOrdinarily, ⟨_, member, rfl, ?_⟩, ⟨_, malformed, rfl, ?_⟩⟩
  · exact ((ends _ _ member).1 (.inl rfl)).2.1
  · exact ((ends _ _ malformed).2 (by decide)).2.1

/-- A floor division by zero and a constant that is written as a member are not
reported as errors of the formula, and a number that is too long to be printed ends the
check of a function. -/
theorem not_isClosed_of_floorDivide_of_member :
    ¬ Formula.standard.IsClosed Guard.defaultLimit "7//0".toList ∧
      ¬ Formula.standard.IsClosed Guard.defaultLimit "x.π".toList ∧
      ¬ Formula.standard.IsClosed Guard.defaultLimit "10^5000".toList := by
  refine ⟨?_, ?_, ?_⟩
  · intro closed
    exact closed.parse Fault.divisionByZero.failure rfl
  · intro closed
    exact closed.parse (Fault.noMember "'Symbol' object" ['π']).failure rfl
  · intro closed
    have failed : (Command.Action.runCheck Formula.standard Guard.defaultLimit .human
        "10^5000".toList).toOption = none := by decide +kernel
    rcases closed.check .human with ⟨outcome, checked, -⟩
    rw [checked] at failed
    cases failed

end Interpreter
end FormulaLine

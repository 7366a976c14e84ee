import FormulaLine.Command.Program
import FormulaLine.Formula.Standard
import FormulaLine.Proofs.CompletionTable

namespace FormulaLine

/-!
# What has no completion table

A list of names is refused for its first name that cannot be called.  No other
check refuses anything.  Every name is among its own prefixes, so only the empty
name can lack a completion, and the completions of a key always form a hint.

On the command line the names are the pieces of one argument, of which the empty
ones are dropped, so what remains to fail is a parenthesis.  An argument of its own
that is written like a switch does not get that far.
-/

namespace Completion

/-! ## Names that can be called -/

/-- A name that an opening parenthesis makes a call of. -/
structure Callable (name : List Char) : Prop where
  nonempty : name ≠ []
  opens_nothing : '(' ∉ name
  closes_nothing : ')' ∉ name

theorem isValidName_iff (name : List Char) : isValidName name = true ↔ Callable name := by
  simp only [isValidName, Bool.and_eq_true, Bool.not_eq_true', List.isEmpty_eq_false_iff,
    List.contains_eq_mem, decide_eq_false_iff_not]
  constructor
  · rintro ⟨⟨nonempty, opens⟩, closes⟩
    exact ⟨nonempty, opens, closes⟩
  · rintro ⟨nonempty, opens, closes⟩
    exact ⟨⟨nonempty, opens⟩, closes⟩

/-- The name cannot be called, and all names before it can. -/
def FirstUncallable (names : List (List Char)) (name : List Char) : Prop :=
  ∃ before after, names = before ++ name :: after ∧
    (∀ earlier ∈ before, Callable earlier) ∧ ¬Callable name

theorem find?_invalid_iff (names : List (List Char)) (name : List Char) :
    names.find? (fun name => !isValidName name) = some name ↔ FirstUncallable names name := by
  simp only [List.find?_eq_some_iff_append, FirstUncallable, Bool.not_not, Bool.not_eq_true',
    ← isValidName_iff, Bool.not_eq_true]
  constructor
  · rintro ⟨invalid, before, after, parts, valid⟩
    exact ⟨before, after, parts, valid, invalid⟩
  · rintro ⟨before, after, parts, valid, invalid⟩
    exact ⟨invalid, before, after, parts, valid⟩

theorem find?_invalid_eq_none_iff (names : List (List Char)) :
    names.find? (fun name => !isValidName name) = none ↔ ∀ name ∈ names, Callable name := by
  simp only [List.find?_eq_none, Bool.not_eq_true', Bool.not_eq_false, isValidName_iff]

/-! ## Tables of any names -/

theorem mem_keys_iff (names : List (List Char)) (key : List Char) :
    key ∈ firstAppearances ((cutsOfNames names).map Prod.fst) ↔
      key ≠ [] ∧ ∃ name ∈ names, key <+: name := by
  rw [firstAppearances_cutsOfNames, List.mem_eraseDups, List.mem_flatMap]
  simp only [mem_prefixes_iff]
  constructor
  · rintro ⟨name, member, nonempty, here⟩
    exact ⟨nonempty, name, member, here⟩
  · rintro ⟨nonempty, name, member, here⟩
    exact ⟨name, member, nonempty, here⟩

/-- If an element is the only one with a property, a search finds it. -/
theorem find?_of_only {p : List Char → Bool} {names : List (List Char)} {name : List Char}
    (member : name ∈ names) (only : ∀ other ∈ names, p other = true ↔ other = name) :
    names.find? p = some name := by
  have found : (names.find? p).isSome := by
    rw [List.find?_isSome]
    exact ⟨name, member, (only name member).mpr rfl⟩
  rcases Option.isSome_iff_exists.mp found with ⟨first, isFirst⟩
  have same := (only first (List.mem_of_find?_eq_some isFirst)).mp (List.find?_some isFirst)
  exact same ▸ isFirst

theorem compile_of_empty_name {names : List (List Char)} (empty : [] ∈ names) :
    compile names = .error (.noCompletion []) := by
  have keyless : names.find? (fun name =>
      !(firstAppearances ((cutsOfNames names).map Prod.fst)).contains name) = some [] := by
    apply find?_of_only empty
    intro name member
    rw [Bool.not_eq_true', List.contains_eq_mem, decide_eq_false_iff_not, mem_keys_iff]
    constructor
    · intro notKey
      by_contra nonempty
      exact notKey ⟨nonempty, name, member, List.prefix_refl name⟩
    · rintro rfl ⟨nonempty, -⟩
      exact nonempty rfl
  rw [compile, keyless]

theorem compile_of_nonempty_names {names : List (List Char)} (nonempty : [] ∉ names) :
    ∃ table, compile names = .ok table := by
  have each : ∀ name ∈ names, name ≠ [] := fun name member same => nonempty (same ▸ member)
  rcases mapM_entry_eq_ok fun key (isKey : key ∈ (names.flatMap prefixes).eraseDups) =>
    entryOf_eq_ok isKey with ⟨entries, found, -⟩
  exact ⟨⟨entries⟩, compile_eq_ok each found⟩

theorem compile_eq_error_iff (names : List (List Char)) (fault : TableFault) :
    compile names = .error fault ↔ [] ∈ names ∧ fault = .noCompletion [] := by
  constructor
  · intro failed
    by_cases empty : [] ∈ names
    · rw [compile_of_empty_name empty] at failed
      exact ⟨empty, (Except.error.inj failed).symm⟩
    · rcases compile_of_nonempty_names empty with ⟨table, compiled⟩
      rw [compiled] at failed
      cases failed
  · rintro ⟨empty, rfl⟩
    exact compile_of_empty_name empty

theorem compile_eq_ok_iff (names : List (List Char)) :
    (∃ table, compile names = .ok table) ↔ [] ∉ names := by
  refine ⟨?_, compile_of_nonempty_names⟩
  rintro ⟨table, compiled⟩ empty
  rw [compile_of_empty_name empty] at compiled
  cases compiled

/-! ## Tables of names that can be called -/

theorem build_of_firstUncallable {names : List (List Char)} {name : List Char}
    (first : FirstUncallable names name) : build names = .error (.invalidName name) := by
  rw [build, (find?_invalid_iff names name).mpr first]

theorem build_of_callable {names : List (List Char)} (callable : ∀ name ∈ names, Callable name) :
    ∃ table, build names = .ok table := by
  rw [build, (find?_invalid_eq_none_iff names).mpr callable]
  exact compile_of_nonempty_names fun empty => (callable [] empty).nonempty rfl

theorem exists_firstUncallable {names : List (List Char)}
    (uncallable : ¬∀ name ∈ names, Callable name) : ∃ first, FirstUncallable names first := by
  rw [← find?_invalid_eq_none_iff, ← ne_eq, Option.ne_none_iff_exists'] at uncallable
  rcases uncallable with ⟨first, found⟩
  exact ⟨first, (find?_invalid_iff names first).mp found⟩

theorem build_eq_error_iff (names : List (List Char)) (fault : TableFault) :
    build names = .error fault ↔
      ∃ name, FirstUncallable names name ∧ fault = .invalidName name := by
  constructor
  · intro failed
    by_cases callable : ∀ name ∈ names, Callable name
    · rcases build_of_callable callable with ⟨table, built⟩
      rw [built] at failed
      cases failed
    · rcases exists_firstUncallable callable with ⟨first, isFirst⟩
      rw [build_of_firstUncallable isFirst] at failed
      exact ⟨first, isFirst, (Except.error.inj failed).symm⟩
  · rintro ⟨name, first, rfl⟩
    exact build_of_firstUncallable first

theorem build_eq_ok_iff (names : List (List Char)) :
    (∃ table, build names = .ok table) ↔ ∀ name ∈ names, Callable name := by
  refine ⟨?_, build_of_callable⟩
  rintro ⟨table, built⟩
  by_contra uncallable
  rcases exists_firstUncallable uncallable with ⟨first, isFirst⟩
  rw [build_of_firstUncallable isFirst] at built
  cases built

end Completion

namespace Command

/-! ## The names in an argument -/

/-- A name in an argument holds a parenthesis. -/
def HoldsParenthesis (list : List Char) : Prop :=
  ∃ name ∈ namesOfList list, '(' ∈ name ∨ ')' ∈ name

instance (list : List Char) : Decidable (HoldsParenthesis list) :=
  inferInstanceAs (Decidable (∃ name ∈ namesOfList list, '(' ∈ name ∨ ')' ∈ name))

/-- The names in an argument are not empty. -/
theorem callable_namesOfList_iff (list : List Char) :
    (∀ name ∈ namesOfList list, Completion.Callable name) ↔ ¬HoldsParenthesis list := by
  constructor
  · rintro callable ⟨name, member, opens | closes⟩
    · exact (callable name member).opens_nothing opens
    · exact (callable name member).closes_nothing closes
  · intro free name member
    have nonempty : name ≠ [] := by simpa using (List.mem_filter.mp member).2
    exact ⟨nonempty, fun opens => free ⟨name, member, .inl opens⟩,
      fun closes => free ⟨name, member, .inr closes⟩⟩

/-! ## The exit code of a table -/

theorem runTable_code_of_callable (format : Format) {names : List (List Char)}
    (callable : ∀ name ∈ names, Completion.Callable name) :
    (Action.runTable format names).code = 0 := by
  rcases Completion.build_of_callable callable with ⟨table, built⟩
  rw [Action.runTable, built]

theorem runTable_code_of_uncallable (format : Format) {names : List (List Char)}
    (uncallable : ¬∀ name ∈ names, Completion.Callable name) :
    (Action.runTable format names).code = 1 := by
  rcases Completion.exists_firstUncallable uncallable with ⟨first, isFirst⟩
  rw [Action.runTable, Completion.build_of_firstUncallable isFirst]
  rfl

/-! ## The arguments that ask for the table of a list -/

/-- The options that ask for the table of a list. -/
def tableOptions (settings : Settings) (list : List Char) : Options :=
  { Options.initial settings with table := true, functions := some list }

/-- The argument is the value of the switch before it: it is not written like a
switch, or names none and is a negative number or holds a space. -/
def ReadAsWord (argument : List Char) : Prop :=
  looksLikeSwitch argument = false ∨
    readings argument = [] ∧ (isNegativeNumber argument = true ∨ ' ' ∈ argument)

instance (argument : List Char) : Decidable (ReadAsWord argument) :=
  inferInstanceAs (Decidable (_ ∨ _ ∧ (_ ∨ _)))

theorem classify_eq_word_iff (argument text : List Char) :
    classify argument = .ok (.word text) ↔ text = argument ∧ ReadAsWord argument := by
  rw [classify, ReadAsWord]
  cases dashed : looksLikeSwitch argument with
  | false => simpa using eq_comm
  | true =>
      rcases readings argument with _ | ⟨reading, _ | ⟨next, more⟩⟩
      · by_cases isText : isNegativeNumber argument = true ∨ ' ' ∈ argument
        · simpa [isText] using eq_comm
        · simp [isText]
      · simp
      · simp

theorem ofSpelling?_of_equals {argument : List Char} (equals : '=' ∈ argument) :
    Switch.ofSpelling? argument = none := by
  have spelledWithout : ∀ entry ∈ Switch.spelled, '=' ∉ entry.1 := by decide
  rw [Switch.ofSpelling?, Option.map_eq_none_iff, List.find?_eq_none]
  intro entry member same
  exact spelledWithout entry member (beq_iff_eq.mp same ▸ equals)

theorem exactReading?_joined (list : List Char) :
    exactReading? ("--functions=".toList ++ list) =
      some ⟨.functions, "--functions".toList, some ⟨true, list⟩⟩ := by
  rw [exactReading?, ofSpelling?_of_equals (List.mem_append_left list (by decide))]
  rfl

theorem classify_joined (list : List Char) :
    classify ("--functions=".toList ++ list) =
      .ok (.switch ⟨.functions, "--functions".toList, some ⟨true, list⟩⟩) := by
  rw [classify, readings, exactReading?_joined]
  rfl

theorem pieces_cons {argument : List Char} {piece : Piece} (inside : argument ≠ ['-', '-'])
    (read : classify argument = .ok piece) (rest : List (List Char)) :
    pieces (argument :: rest) = (pieces rest).map (piece :: ·) := by
  rw [pieces, if_neg inside, read]

theorem pieces_table (rest : List (List Char)) :
    pieces ("--table".toList :: rest) =
      (pieces rest).map (.switch ⟨.table, "--table".toList, none⟩ :: ·) := by
  have read : classify "--table".toList = .ok (.switch ⟨.table, "--table".toList, none⟩) := rfl
  rw [pieces_cons (by decide) read]

theorem ofArguments_joined (settings : Settings) (list : List Char) :
    Options.ofArguments settings ["--table".toList, "--functions=".toList ++ list] =
      .ok (tableOptions settings list) := by
  have inside : "--functions=".toList ++ list ≠ ['-', '-'] := by simp
  have read : pieces ["--table".toList, "--functions=".toList ++ list] =
      .ok [.switch ⟨.table, "--table".toList, none⟩,
        .switch ⟨.functions, "--functions".toList, some ⟨true, list⟩⟩] := by
    rw [pieces_table, pieces_cons inside (classify_joined list)]
    rfl
  rw [Options.ofArguments, read]
  rfl

/-- What stands behind the two switches is read for itself. -/
theorem pieces_apart (list : List Char) :
    pieces ["--table".toList, "--functions".toList, list] =
      (pieces [list]).map fun behind =>
        .switch ⟨.table, "--table".toList, none⟩ ::
          .switch ⟨.functions, "--functions".toList, none⟩ :: behind := by
  have read : classify "--functions".toList =
      .ok (.switch ⟨.functions, "--functions".toList, none⟩) := rfl
  rw [pieces_table, pieces_cons (by decide) read]
  cases pieces [list] with
  | error error => rfl
  | ok behind => rfl

theorem ofArguments_apart (settings : Settings) {list : List Char} (word : ReadAsWord list) :
    Options.ofArguments settings ["--table".toList, "--functions".toList, list] =
      .ok (tableOptions settings list) := by
  have inside : list ≠ ['-', '-'] := by
    rintro rfl
    exact absurd word (by decide)
  have read : pieces [list] = .ok [.word list] :=
    pieces_cons inside ((classify_eq_word_iff list list).mpr ⟨rfl, word⟩) []
  rw [Options.ofArguments, pieces_apart, read]
  rfl

theorem ofArguments_apart_of_switch (settings : Settings) {list : List Char}
    (switch : ¬ReadAsWord list) :
    ∃ error, Options.ofArguments settings ["--table".toList, "--functions".toList, list] =
      .error (.refused error) := by
  rw [Options.ofArguments, pieces_apart]
  by_cases terminator : list = ['-', '-']
  · subst terminator
    exact ⟨.missingValue .functions, rfl⟩
  cases read : classify list with
  | error spellings =>
      refine ⟨.ambiguous list spellings, ?_⟩
      rw [pieces, if_neg terminator, read]
      rfl
  | ok piece =>
      rw [pieces_cons terminator read]
      cases piece with
      | word text => exact absurd ((classify_eq_word_iff list text).mp read).2 switch
      | terminator => exact ⟨.missingValue .functions, rfl⟩
      | switch reading => exact ⟨.missingValue .functions, rfl⟩
      | unknown text => exact ⟨.missingValue .functions, rfl⟩

/-- The arguments that give a list to the table: behind an equals sign, or as an
argument of its own. -/
inductive GivesList (list : List Char) : List (List Char) → Prop where
  | joined : GivesList list ["--table".toList, "--functions=".toList ++ list]
  | apart (word : ReadAsWord list) :
    GivesList list ["--table".toList, "--functions".toList, list]

theorem ofArguments_of_givesList (settings : Settings) {list : List Char}
    {arguments : List (List Char)} (given : GivesList list arguments) :
    Options.ofArguments settings arguments = .ok (tableOptions settings list) := by
  cases given with
  | joined => exact ofArguments_joined settings list
  | apart word => exact ofArguments_apart settings word

/-! ## The program asked for a table -/

theorem execute_of_givesList {α : Type} (I : Interpreter α) {settings : Settings}
    {level : Log.Level}
    (accepted : Log.Level.ofName settings.logLevel = .ok level) {list : List Char}
    {arguments : List (List Char)} (given : GivesList list arguments) (input : List Char) :
    ∃ run, execute I settings arguments input = .ok run ∧
      run.outcome = Action.runTable .human (tableOptions settings list).tableNames := by
  have request : (Log.Setup.mk (tableOptions settings list).logLevel
      (tableOptions settings list).logFile).refusal? = none := by
    have level : (Log.Setup.mk settings.logLevel none).level = .ok level := accepted
    change (Log.Setup.mk settings.logLevel none).refusal? = none
    rw [Log.Setup.refusal?, level]
  have planned : plan settings arguments = .ok ⟨.setup .initial
      ⟨(tableOptions settings list).logLevel, (tableOptions settings list).logFile⟩,
      tableOptions settings list⟩ := by
    rw [plan, ofArguments_of_givesList settings given]
    simp only [request]
  rw [execute, planned]
  exact ⟨_, rfl, rfl⟩

/-- An empty argument stands for the supported functions, which can all be called. -/
theorem runTable_code (settings : Settings) (list : List Char) :
    (Action.runTable .human (tableOptions settings list).tableNames).code =
      if HoldsParenthesis list then 1 else 0 := by
  cases list with
  | nil =>
      have supported : ∀ name ∈ Vocabulary.functions, Completion.Callable name :=
        (Completion.find?_invalid_eq_none_iff Vocabulary.functions).mp (by decide)
      exact runTable_code_of_callable .human supported
  | cons c rest =>
      have names : (tableOptions settings (c :: rest)).tableNames = namesOfList (c :: rest) := rfl
      rw [names]
      by_cases holds : HoldsParenthesis (c :: rest)
      · rw [if_pos holds]
        exact runTable_code_of_uncallable .human
          fun callable => (callable_namesOfList_iff _).mp callable holds
      · rw [if_neg holds]
        exact runTable_code_of_callable .human ((callable_namesOfList_iff _).mpr holds)

theorem execute_of_switch {α : Type} (I : Interpreter α) (settings : Settings)
    {list : List Char} (switch : ¬ReadAsWord list) (input : List Char) :
    ∃ error, execute I settings ["--table".toList, "--functions".toList, list] input =
      .error (.usage error) := by
  rcases ofArguments_apart_of_switch settings switch with ⟨error, refused⟩
  refine ⟨error, ?_⟩
  rw [execute, plan, refused]
  rfl

/-- A table fails for the first of its names that cannot be called, and without the
check of the names it fails for the empty name; there is no other fault.  The program
that is given a list for its table therefore reports a failure exactly when a name
of the list holds a parenthesis. -/
theorem table_faults_exact :
    (∀ names fault, Completion.build names = .error fault ↔
      ∃ name, Completion.FirstUncallable names name ∧ fault = .invalidName name ∧
        fault.code = "INVALID_FUNCTION_NAME") ∧
    (∀ names, (∃ table, Completion.build names = .ok table) ↔
      ∀ name ∈ names, Completion.Callable name) ∧
    (∀ names fault, Completion.compile names = .error fault ↔
      [] ∈ names ∧ fault = .noCompletion [] ∧ fault.code = "TABLE_BUILD_ERROR") ∧
    (∀ names, (∃ table, Completion.compile names = .ok table) ↔ [] ∉ names) ∧
    ∀ {α : Type} (I : Interpreter α) settings level,
      Log.Level.ofName settings.logLevel = .ok level → ∀ list input,
      (∀ arguments, GivesList list arguments →
        ∃ run, execute I settings arguments input = .ok run ∧
          run.outcome.code = if HoldsParenthesis list then 1 else 0) ∧
      (¬ReadAsWord list →
        ∃ error, execute I settings ["--table".toList, "--functions".toList, list] input =
          .error (.usage error)) := by
  refine ⟨?_, Completion.build_eq_ok_iff, ?_, Completion.compile_eq_ok_iff, ?_⟩
  · intro names fault
    rw [Completion.build_eq_error_iff]
    refine exists_congr fun name => and_congr_right fun _ => ?_
    exact ⟨fun same => ⟨same, same ▸ rfl⟩, And.left⟩
  · intro names fault
    rw [Completion.compile_eq_error_iff]
    refine and_congr_right fun _ => ?_
    exact ⟨fun same => ⟨same, same ▸ rfl⟩, And.left⟩
  · intro α I settings level accepted list input
    refine ⟨?_, fun switch => execute_of_switch I settings switch input⟩
    intro arguments given
    rcases execute_of_givesList I accepted given input with ⟨run, executed, outcome⟩
    exact ⟨run, executed, by rw [outcome, runTable_code]⟩

theorem table_faults_exact_of_parenthesis :
    ReadAsWord "sin, co(s".toList ∧ HoldsParenthesis "sin, co(s".toList ∧
      ∃ run, execute Formula.standard .standard
          ["--table".toList, "--functions".toList, "sin, co(s".toList] [] = .ok run ∧
        run.outcome.code = 1 := by
  have word : ReadAsWord "sin, co(s".toList := by decide
  have holds : HoldsParenthesis "sin, co(s".toList := by decide
  rcases (table_faults_exact.2.2.2.2 Formula.standard .standard .warning rfl
    "sin, co(s".toList []).1 _ (.apart word) with ⟨run, executed, code⟩
  exact ⟨word, holds, run, executed, code.trans (if_pos holds)⟩

/-- Nothing is wrong with the list, but it is read as a switch; and a level that
cannot be set ends the program before it reads any list. -/
theorem execute_table_without_parenthesis :
    (¬HoldsParenthesis "-x".toList ∧
      execute Formula.standard .standard ["--table".toList, "--functions".toList, "-x".toList] [] =
        .error (.usage (.missingValue .functions))) ∧
    (¬HoldsParenthesis "sin".toList ∧
      execute Formula.standard { Settings.standard with logLevel := "_styles".toList }
        ["--table".toList, "--functions".toList, "sin".toList] [] =
        .error (.reservedLevel .formatStyles)) :=
  ⟨⟨by decide, rfl⟩, ⟨by decide, rfl⟩⟩

end Command
end FormulaLine

import FormulaLine.Proofs.Resolution

namespace FormulaLine

/-!
# Which names an accepted formula may hold

The names that are checked are those of the value of a formula, not the words of its
text.  Of the system that reads formulas it is known that the value has its names from
the words that have no entry in the vocabulary.  Which of these words are lost on the
way is left open: terms cancel, and a word may be resolved to something else than a
name.  A text is accepted exactly if its value is defined and no word without an entry
is left in it as a name, but for the argument as a symbol; and where no word is lost,
an accepted text is written with known words only.
-/

namespace Formula

/-- A word that a function of `x` is written with. -/
def IsKnown (word : List Char) : Prop :=
  word = argument ∨ word ∈ Vocabulary.names

/-- Where all words are known, the argument alone is mentioned. -/
theorem eq_argument_of_mentions {formula name : List Char}
    (known : ∀ word ∈ words formula, IsKnown word) (mentioned : Mentions formula name) :
    name = argument := by
  rcases mentioned with ⟨written, outside⟩ | ⟨-, written⟩
  · exact (known name written).resolve_right outside
  · exact absurd (known _ written) (by rw [IsKnown]; decide)

end Formula

namespace Interpreter

open Formula (IsKnown Mentions words)

variable {α : Type} (I : Interpreter α)

/-- The text is handed on and read as an expression. -/
structure HasValue (limit : Int) (text : List Char) (value : α) : Prop where
  nonempty : text ≠ []
  accepted : Guard.refusal? limit text = none
  read : I.read (Split.explicit text) = .ok (some value)

/-- The word is left in the value, as a symbol or as a function that is called. -/
def IsLeft (value : α) (word : List Char) : Prop :=
  word ∈ I.symbolNames value ∨ word ∈ I.callNames value

section Accepted

variable {I} {limit : Int} {text formula : List Char} {value : α}

/-- The symbols that are refused. -/
theorem filter_ne_argument_eq_nil_iff :
    (I.symbolNames value).filter (· != Formula.argument) = [] ↔
      ∀ name ∈ I.symbolNames value, name = Formula.argument := by
  simp [List.filter_eq_nil_iff]

theorem accept_eq_ok_iff {read : Option α} :
    I.accept formula read = .ok value ↔
      read = some value ∧ I.callNames value = [] ∧
        (∀ name ∈ I.symbolNames value, name = Formula.argument) ∧
        I.isUndefined value = false := by
  cases read with
  | none => simp [accept]
  | some found =>
    simp only [accept, Bool.not_eq_true', List.isEmpty_eq_false_iff, ne_eq, Text.sort_eq_nil_iff,
      filter_ne_argument_eq_nil_iff]
    constructor
    · intro accepted
      split at accepted
      · cases accepted
      · split at accepted
        · cases accepted
        · split at accepted
          · cases accepted
          · cases accepted
            rename_i known argumentOnly defined
            exact ⟨rfl, not_not.mp known, not_not.mp argumentOnly, Bool.eq_false_iff.mpr defined⟩
    · rintro ⟨same, known, argumentOnly, defined⟩
      cases same
      rw [if_neg (not_not.mpr known), if_neg (not_not.mpr argumentOnly), defined]
      rfl

theorem readExplicit_eq_ok_iff :
    I.readExplicit formula = .ok value ↔
      I.read formula = .ok (some value) ∧ I.callNames value = [] ∧
        (∀ name ∈ I.symbolNames value, name = Formula.argument) ∧
        I.isUndefined value = false := by
  rw [readExplicit]
  cases read : I.read formula with
  | ok found => simp [accept_eq_ok_iff]
  | error failure =>
    dsimp only
    split <;> simp

theorem parse_eq_some_iff :
    I.parse limit text = .ok (some value) ↔
      I.HasValue limit text value ∧ I.callNames value = [] ∧
        (∀ name ∈ I.symbolNames value, name = Formula.argument) ∧
        I.isUndefined value = false := by
  have accepted := @Formula.parseBy_eq_map_iff _ I.readExplicit limit text (.ok value)
    (fun refusal same => by cases same)
  rw [readExplicit_eq_ok_iff] at accepted
  constructor
  · intro parsed
    rcases accepted.mp parsed with ⟨nonempty, guarded, read, checked⟩
    exact ⟨⟨nonempty, guarded, read⟩, checked⟩
  · rintro ⟨has, checked⟩
    exact accepted.mpr ⟨has.nonempty, has.accepted, has.read, checked⟩

namespace HasValue

variable (has : I.HasValue limit text value)

include has

theorem parse_eq : I.parse limit text =
    (I.accept (Split.explicit text) (some value)).map some := by
  rw [parse, Formula.parseBy_of_accepted has.nonempty has.accepted, readExplicit, has.read]

/-- The names of the value come from words of the text without an entry. -/
theorem mentions (resolves : I.ResolvesNames) {word : List Char} (left : I.IsLeft value word) :
    Mentions (Split.explicit text) word := by
  have allowed := ((Formula.refusal?_eq_none_iff limit text).mp has.accepted).2.1
  rcases left with symbol | called
  · exact resolves.symbols allowed has.read word symbol
  · exact resolves.calls allowed has.read word called

theorem parse_eq_unknownFunctions (called : I.callNames value ≠ []) :
    I.parse limit text = .error (.unknownFunctions (Text.sort (I.callNames value))) := by
  have unknown : (!(Text.sort (I.callNames value)).isEmpty) = true := by simpa using called
  rw [has.parse_eq, accept, if_pos unknown]
  rfl

theorem parse_eq_invalidVariables (known : I.callNames value = [])
    (foreign : ∃ name ∈ I.symbolNames value, name ≠ Formula.argument) :
    I.parse limit text = .error (.invalidVariables
      (Text.sort ((I.symbolNames value).filter (· != Formula.argument)))) := by
  have invalid :
      (!(Text.sort ((I.symbolNames value).filter (· != Formula.argument))).isEmpty) = true := by
    simpa using foreign
  rw [has.parse_eq, accept, known, if_neg (by decide), if_pos invalid]
  rfl

end HasValue

end Accepted

/-- A text is accepted exactly if it has a value that is defined, calls no function and
has no symbol but the argument.  All names of a value come from words of the text
without an entry in the vocabulary, so the text is written with known words exactly if
it is accepted and no other word is lost on the way to the value.  A name that is left
refuses the text: the functions first, then the symbols, each in their order. -/
theorem parse_eq_some_iff_vanished (resolves : I.ResolvesNames) (limit : Int) (text : List Char)
    (value : α) :
    (I.parse limit text = .ok (some value) ↔
      I.HasValue limit text value ∧ I.callNames value = [] ∧
        (∀ name ∈ I.symbolNames value, name = Formula.argument) ∧
        I.isUndefined value = false) ∧
    (I.HasValue limit text value →
      (∀ name, I.IsLeft value name → Mentions (Split.explicit text) name) ∧
      (I.isUndefined value = false → Formula.argument ∉ I.callNames value →
        ((∀ word ∈ words (Split.explicit text), IsKnown word) ↔
          I.parse limit text = .ok (some value) ∧
            ∀ word ∈ words (Split.explicit text), ¬ IsKnown word → I.IsLeft value word)) ∧
      (I.callNames value ≠ [] →
        I.parse limit text = .error (.unknownFunctions (Text.sort (I.callNames value)))) ∧
      (I.callNames value = [] → (∃ name ∈ I.symbolNames value, name ≠ Formula.argument) →
        I.parse limit text = .error (.invalidVariables
          (Text.sort ((I.symbolNames value).filter (· != Formula.argument)))))) := by
  refine ⟨parse_eq_some_iff, fun has => ⟨fun name => has.mentions resolves, ?_,
    has.parse_eq_unknownFunctions, has.parse_eq_invalidVariables⟩⟩
  intro defined uncalled
  constructor
  · intro known
    have argumentOnly : ∀ name, I.IsLeft value name → name = Formula.argument :=
      fun name left => Formula.eq_argument_of_mentions known (has.mentions resolves left)
    have noCall : I.callNames value = [] := by
      apply List.eq_nil_iff_forall_not_mem.mpr
      intro name called
      exact uncalled (argumentOnly name (.inr called) ▸ called)
    refine ⟨parse_eq_some_iff.mpr ⟨has, noCall, ?_, defined⟩, ?_⟩
    · exact fun name symbol => argumentOnly name (.inl symbol)
    · exact fun word written unknown => absurd (known word written) unknown
  · rintro ⟨parsed, kept⟩ word written
    rcases parse_eq_some_iff.mp parsed with ⟨-, noCall, argumentOnly, -⟩
    by_contra unknown
    rcases kept word written unknown with symbol | called
    · exact unknown (.inl (argumentOnly word symbol))
    · rw [noCall] at called
      cases called

/-! ## The interpreter that runs -/

/-- A value that passes a test is read off by running the interpreter. -/
theorem exists_of_read {formula : List Char} {test : Term → Bool}
    (found : (Formula.standard.read formula).toOption.join.any test = true) :
    ∃ t, Formula.standard.read formula = .ok (some t) ∧ test t = true := by
  cases read : Formula.standard.read formula with
  | error failure => simp [read, Except.toOption] at found
  | ok value =>
    cases value with
    | none => simp [read, Except.toOption] at found
    | some t => exact ⟨t, rfl, by simpa [read, Except.toOption] using found⟩

/-- A variable that cancels leaves a function of `x`, and those that stay are refused. -/
theorem parse_eq_some_iff_of_cancelled :
    Formula.standard.ResolvesNames ∧
      (∃ t, Formula.standard.HasValue Guard.defaultLimit "a-a+x".toList t ∧
        Formula.standard.parse Guard.defaultLimit "a-a+x".toList = .ok (some t)) ∧
      Formula.standard.parse Guard.defaultLimit "a+b+x".toList =
        .error (.invalidVariables [['a'], ['b']]) := by
  have resolves := Formula.resolvesNames_standard
  refine ⟨resolves, ?_, ?_⟩
  · rcases @exists_of_read (Split.explicit "a-a+x".toList)
      (fun t => Formula.standard.callNames t == [] &&
        Formula.standard.symbolNames t == [Formula.argument] && !t.isUndefined)
      (by decide +kernel) with ⟨t, read, checked⟩
    rw [Bool.and_eq_true, Bool.and_eq_true, beq_iff_eq, beq_iff_eq, Bool.not_eq_true'] at checked
    rcases checked with ⟨⟨noCall, symbols⟩, defined⟩
    have has : Formula.standard.HasValue Guard.defaultLimit "a-a+x".toList t :=
      ⟨by decide, by decide, read⟩
    exact ⟨t, has, (Formula.standard.parse_eq_some_iff_vanished resolves _ _ t).1.mpr
      ⟨has, noCall, by simp [symbols], defined⟩⟩
  · rcases @exists_of_read (Split.explicit "a+b+x".toList)
      (fun t => Formula.standard.callNames t == [] &&
        Formula.standard.symbolNames t == [['a'], ['b'], ['x']])
      (by decide +kernel) with ⟨t, read, checked⟩
    rw [Bool.and_eq_true, beq_iff_eq, beq_iff_eq] at checked
    rcases checked with ⟨noCall, symbols⟩
    have has : Formula.standard.HasValue Guard.defaultLimit "a+b+x".toList t :=
      ⟨by decide, by decide, read⟩
    have refused := ((Formula.standard.parse_eq_some_iff_vanished resolves _ _ t).2 has).2.2.2
    rw [symbols] at refused
    exact refused noCall ⟨['a'], by decide, by decide⟩

/-- A variable that cancels, and a name that makes a number out of a number, are
accepted. -/
theorem accepted_of_vanished :
    (∃ t, Formula.standard.parse Guard.defaultLimit "a-a".toList = .ok (some t)) ∧
      ['a'] ∈ words (Split.explicit "a-a".toList) ∧ ¬ IsKnown ['a'] ∧
      (∃ t, Formula.standard.parse Guard.defaultLimit "Integer(5)".toList = .ok (some t)) ∧
      "Integer".toList ∈ words (Split.explicit "Integer(5)".toList) ∧
      ¬ IsKnown "Integer".toList := by
  -- A value without names is accepted.
  have accepted : ∀ {text : List Char}, text ≠ [] → Guard.refusal? Guard.defaultLimit text = none →
      ((Formula.standard.read (Split.explicit text)).toOption.join.any fun t =>
        t.callNames.isEmpty && t.symbols.isEmpty && !t.isUndefined) = true →
      ∃ t, Formula.standard.parse Guard.defaultLimit text = .ok (some t) := by
    intro text nonempty guarded found
    rcases exists_of_read found with ⟨t, read, checked⟩
    rw [Bool.and_eq_true, Bool.and_eq_true, List.isEmpty_iff, List.isEmpty_iff,
      Bool.not_eq_true'] at checked
    rcases checked with ⟨⟨noCall, noSymbol⟩, defined⟩
    refine ⟨t, parse_eq_some_iff.mpr ⟨⟨nonempty, guarded, read⟩, noCall, ?_, defined⟩⟩
    intro name symbol
    change name ∈ t.symbols at symbol
    rw [noSymbol] at symbol
    cases symbol
  refine ⟨accepted (by decide) (by decide) (by decide +kernel), by decide, ?_,
    accepted (by decide) (by decide) (by decide +kernel), by decide, ?_⟩ <;>
  · rw [IsKnown]
    decide

end Interpreter
end FormulaLine

import FormulaLine.Formula.Standard
import FormulaLine.Proofs.Resplitting

namespace FormulaLine

/-!
# What the guard lets through is what is read

The guard looks at a formula as it is typed, and the formula that is read has
its multiplications written.  The three checks carry over.  Each character of the
written formula was typed, or is a constant, a power or a marker.  Parentheses
keep their order, and the balance depends on nothing else.  A point that is
followed by a name was followed by it before, since neither a point nor a blank
nor a letter is ever inserted.

A formula that passes has no placeholder in it, so writing its multiplications a
second time changes nothing; it is read, or refused by the reader, as it was.
-/

namespace Guard

/-! ## Balance -/

def isParenthesis (c : Char) : Bool :=
  c == '(' || c == ')'

section Steps

variable (pending : List Nat) (position : Nat) (rest : List Char)

theorem faultAfter_opening :
    faultAfter pending position ('(' :: rest) =
      faultAfter (position :: pending) (position + 1) rest := by
  rw [faultAfter.eq_def]
  rfl

theorem faultAfter_surplus : faultAfter [] position (')' :: rest) = some position := by
  rw [faultAfter.eq_def]
  rfl

theorem faultAfter_closing (place : Nat) :
    faultAfter (place :: pending) position (')' :: rest) =
      faultAfter pending (position + 1) rest := by
  rw [faultAfter.eq_def]
  rfl

theorem faultAfter_other {c : Char} (other : isParenthesis c = false) :
    faultAfter pending position (c :: rest) = faultAfter pending (position + 1) rest := by
  rw [isParenthesis, Bool.or_eq_false_iff, beq_eq_false_iff_ne, beq_eq_false_iff_ne] at other
  rw [faultAfter.eq_def]
  simp only [if_neg other.1, if_neg other.2]

end Steps

/-- Whether a fault is found depends on the number of open parentheses and on the
parentheses that follow, not on where they stand. -/
theorem faultAfter_eq_none_iff_filter (text : List Char) {pending pending' : List Nat}
    (same : pending.length = pending'.length) (position position' : Nat) :
    faultAfter pending position text = none ↔
      faultAfter pending' position' (text.filter isParenthesis) = none := by
  induction text generalizing pending pending' position position' with
  | nil =>
      rw [List.filter_nil, faultAfter, faultAfter, List.getLast?_eq_none_iff,
        List.getLast?_eq_none_iff, ← List.length_eq_zero_iff, ← List.length_eq_zero_iff, same]
  | cons c rest ih =>
      by_cases opening : c = '('
      · subst opening
        have kept : ('(' :: rest).filter isParenthesis = '(' :: rest.filter isParenthesis := rfl
        rw [kept, faultAfter_opening, faultAfter_opening]
        exact ih (by simp [same]) (position + 1) (position' + 1)
      by_cases closing : c = ')'
      · subst closing
        have kept : (')' :: rest).filter isParenthesis = ')' :: rest.filter isParenthesis := rfl
        rw [kept]
        cases pending with
        | nil =>
            have empty : pending' = [] := List.length_eq_zero_iff.mp same.symm
            rw [empty, faultAfter_surplus, faultAfter_surplus]
            simp
        | cons place outer =>
            cases pending' with
            | nil => cases same
            | cons place' outer' =>
                rw [faultAfter_closing, faultAfter_closing]
                exact ih (Nat.succ.inj same) (position + 1) (position' + 1)
      · have other : isParenthesis c = false := by simp [isParenthesis, opening, closing]
        rw [List.filter_cons_of_neg (by simp [other]), faultAfter_other _ _ _ other]
        exact ih same (position + 1) position'

/-- Balance is a matter of the parentheses alone. -/
theorem imbalance?_eq_none_of_filter {text other : List Char}
    (same : other.filter isParenthesis = text.filter isParenthesis)
    (balanced : imbalance? text = none) : imbalance? other = none := by
  have noPlace : ([] : List Nat).length = ([] : List Nat).length := rfl
  rw [imbalance?, faultAfter_eq_none_iff_filter other noPlace 0 0, same,
    ← faultAfter_eq_none_iff_filter text noPlace 0 0]
  exact balanced

/-! ## Member access -/

/-- The characters that the guard refuses behind a point. -/
def isNameStart (c : Char) : Bool :=
  Glyph.isAsciiLetter c || c == '_'

theorem isBlank_of_isNameStart {c : Char} (name : isNameStart c = true) :
    Text.isBlank c = false := by
  have letters : 65 ≤ c.toNat ∧ c.toNat ≤ 122 := by
    simp only [isNameStart, Glyph.isAsciiLetter, Bool.or_eq_true, Bool.and_eq_true,
      decide_eq_true_eq, beq_iff_eq, Char.le_def, UInt32.le_iff_toNat_le] at name
    rcases name with (lower | upper) | rfl
    · simp only [Char.reduceVal, UInt32.reduceToNat] at lower
      exact ⟨Nat.le_trans (by decide) lower.1, lower.2⟩
    · simp only [Char.reduceVal, UInt32.reduceToNat] at upper
      exact ⟨upper.1, Nat.le_trans upper.2 (by decide)⟩
    · decide
  simp only [Text.isBlank, Text.blankRanges, List.any_cons, List.any_nil, Bool.or_false,
    Bool.or_eq_false_iff, Bool.and_eq_false_iff, decide_eq_false_iff_not]
  omega

theorem isBlank_of_isAsciiDigit {c : Char} (digit : Glyph.isAsciiDigit c = true) :
    Text.isBlank c = false := by
  simp only [Glyph.isAsciiDigit, Bool.and_eq_true, decide_eq_true_eq, Char.le_def,
    UInt32.le_iff_toNat_le, Char.reduceVal, UInt32.reduceToNat] at digit
  have low : 48 ≤ c.toNat := digit.1
  have high : c.toNat ≤ 57 := digit.2
  simp only [Text.isBlank, Text.blankRanges, List.any_cons, List.any_nil, Bool.or_false,
    Bool.or_eq_false_iff, Bool.and_eq_false_iff, decide_eq_false_iff_not]
  omega

theorem startsName_iff (text : List Char) :
    startsName text = true ↔ ∃ gap c, (∀ b ∈ gap, Text.isBlank b = true) ∧
      isNameStart c = true ∧ gap ++ [c] <+: text := by
  induction text with
  | nil => simp [startsName]
  | cons d rest ih =>
      by_cases blank : Text.isBlank d = true
      · have dropped : startsName (d :: rest) = startsName rest := by
          rw [startsName, startsName, List.dropWhile_cons_of_pos blank]
        rw [dropped, ih]
        constructor
        · rintro ⟨gap, c, blanks, name, found⟩
          refine ⟨d :: gap, c, ?_, name, List.cons_prefix_cons.mpr ⟨rfl, found⟩⟩
          intro b member
          rcases List.mem_cons.mp member with same | later
          · exact same ▸ blank
          · exact blanks b later
        · rintro ⟨gap, c, blanks, name, found⟩
          cases gap with
          | nil =>
              have same : c = d := (List.cons_prefix_cons.mp found).1
              rw [same] at name
              rw [isBlank_of_isNameStart name] at blank
              cases blank
          | cons g gap =>
              exact ⟨gap, c, fun b member => blanks b (List.mem_cons_of_mem g member), name,
                (List.cons_prefix_cons.mp found).2⟩
      · have here : startsName (d :: rest) = isNameStart d := by
          rw [startsName, List.dropWhile_cons_of_neg blank]
          rfl
        rw [here]
        constructor
        · intro name
          exact ⟨[], d, by simp, name, List.prefix_append [d] rest⟩
        · rintro ⟨gap, c, blanks, name, found⟩
          cases gap with
          | nil => exact (List.cons_prefix_cons.mp found).1 ▸ name
          | cons g gap =>
              have same : g = d := (List.cons_prefix_cons.mp found).1
              exact absurd (same ▸ blanks g List.mem_cons_self) blank

/-- A member is accessed where a point, blanks and the start of a name stand
together. -/
theorem hasMemberAccess_iff (text : List Char) :
    hasMemberAccess text = true ↔ ∃ gap c, (∀ b ∈ gap, Text.isBlank b = true) ∧
      isNameStart c = true ∧ '.' :: (gap ++ [c]) <:+: text := by
  induction text with
  | nil => simp [hasMemberAccess]
  | cons d rest ih =>
      rw [hasMemberAccess, Bool.or_eq_true, Bool.and_eq_true, beq_iff_eq, startsName_iff, ih]
      constructor
      · rintro (⟨rfl, gap, c, blanks, name, found⟩ | ⟨gap, c, blanks, name, found⟩)
        · exact ⟨gap, c, blanks, name, (List.cons_prefix_cons.mpr ⟨rfl, found⟩).isInfix⟩
        · exact ⟨gap, c, blanks, name, List.infix_cons found⟩
      · rintro ⟨gap, c, blanks, name, found⟩
        rcases List.infix_cons_iff.mp found with here | later
        · rcases List.cons_prefix_cons.mp here with ⟨point, found⟩
          exact Or.inl ⟨point.symm, gap, c, blanks, name, found⟩
        · exact Or.inr ⟨gap, c, blanks, name, later⟩

end Guard

namespace Split

open Guard

/-! ## The checks on the written formula -/

variable {text : List Char}

theorem placeholder_not_mem_of_allowed (allowed : text.all isAllowed = true) :
    Vocabulary.expPlaceholder ∉ text := by
  intro member
  exact absurd (List.all_eq_true.mp allowed _ member) (by decide)

theorem isAllowed_of_inserted {c : Char} (new : c ∈ inserted) : isAllowed c = true := by
  rcases mem_inserted_iff.mp new with rfl | rfl | rfl <;> decide

theorem all_isAllowed_explicit (allowed : text.all isAllowed = true) :
    (explicit text).all isAllowed = true := by
  have free := placeholder_not_mem_of_allowed allowed
  rw [List.all_eq_true] at allowed ⊢
  intro c member
  rcases mem_explicit free member with typed | new
  · exact allowed c typed
  · exact isAllowed_of_inserted new

theorem apart_of_inserted {c : Char} (new : c ∈ inserted) :
    c ≠ '.' ∧ Text.isBlank c = false ∧ isNameStart c = false := by
  rcases mem_inserted_iff.mp new with rfl | rfl | rfl <;> decide

/-- No part of a member access is inserted. -/
theorem not_mem_memberAccess {gap : List Char} {c d : Char}
    (blanks : ∀ b ∈ gap, Text.isBlank b = true) (name : isNameStart c = true)
    (new : d ∈ inserted) : d ∉ '.' :: (gap ++ [c]) := by
  rcases apart_of_inserted new with ⟨point, blank, other⟩
  intro member
  rcases List.mem_cons.mp member with same | later
  · exact point same
  rcases List.mem_append.mp later with inGap | last
  · rw [blanks d inGap] at blank
    cases blank
  · rw [List.mem_singleton.mp last, name] at other
    cases other

theorem hasMemberAccess_explicit (free : Vocabulary.expPlaceholder ∉ text)
    (guarded : hasMemberAccess text = false) : hasMemberAccess (explicit text) = false := by
  apply Bool.eq_false_iff.mpr
  intro accessed
  rcases (hasMemberAccess_iff _).mp accessed with ⟨gap, c, blanks, name, found⟩
  have typed : '.' :: (gap ++ [c]) <:+: text :=
    infix_of_infix_explicit free (fun d new => not_mem_memberAccess blanks name new) found
  have accessedBefore := (hasMemberAccess_iff text).mpr ⟨gap, c, blanks, name, typed⟩
  rw [guarded] at accessedBefore
  cases accessedBefore

theorem filter_isParenthesis_explicit (free : Vocabulary.expPlaceholder ∉ text) :
    (explicit text).filter isParenthesis = text.filter isParenthesis := by
  rw [(marked_explicit free).filter_eq (by decide), condense]
  rw [Text.filter_replaceAll (by decide) (by decide) (by decide),
    Text.filter_replaceAll (by decide) (by decide) (by decide)]

end Split

namespace Formula

open Guard

theorem refusal?_eq_none_iff (limit : Int) (text : List Char) :
    refusal? limit text = none ↔ text.length ≤ limit ∧ text.all isAllowed = true ∧
      hasMemberAccess text = false ∧ imbalance? text = none := by
  rw [refusal?]
  by_cases long : limit < text.length
  · simp [long, Int.not_le.mpr long]
  · cases allowed : text.all isAllowed <;> cases accessed : hasMemberAccess text <;>
      simp [long, Int.not_lt.mp long]

theorem parseBy_of_accepted {α : Type} {read : List Char → Except ParseError α} {limit : Int}
    {text : List Char} (nonempty : text ≠ []) (accepted : refusal? limit text = none) :
    parseBy read limit text = (read (Split.explicit text)).map some := by
  rw [parseBy, if_neg (by simpa using nonempty), accepted]

/-- A result that is no refusal of the guard is a result of the reader. -/
theorem parseBy_eq_map_iff {α : Type} {read : List Char → Except ParseError α} {limit : Int}
    {text : List Char} {result : Except ParseError α}
    (free : ∀ refusal, result ≠ .error (.refused refusal)) :
    parseBy read limit text = result.map some ↔
      text ≠ [] ∧ refusal? limit text = none ∧ read (Split.explicit text) = result := by
  constructor
  · intro parsed
    by_cases empty : text = []
    · subst empty
      cases result <;> cases parsed
    · cases guarded : refusal? limit text with
      | some refusal =>
        rw [parseBy, if_neg (by simpa using empty), guarded] at parsed
        cases result with
        | ok value => cases parsed
        | error error =>
          cases parsed
          exact absurd rfl (free refusal)
      | none =>
        rw [parseBy_of_accepted empty guarded] at parsed
        refine ⟨empty, rfl, ?_⟩
        cases made : read (Split.explicit text) <;> cases result <;> rw [made] at parsed <;>
          cases parsed <;> rfl
  · rintro ⟨nonempty, accepted, made⟩
    rw [parseBy_of_accepted nonempty accepted, made]

/-- A formula that the guard lets through, with its multiplications written,
passes the three checks on its text.  If it is short enough to be let through
again, every reader makes of it what it made of the formula as it was typed. -/
theorem parseBy_explicit {limit : Int} {text : List Char}
    (accepted : refusal? limit text = none) :
    (Split.explicit text).all isAllowed = true ∧
      hasMemberAccess (Split.explicit text) = false ∧
      imbalance? (Split.explicit text) = none ∧
      ((Split.explicit text).length ≤ limit →
        ∀ {α : Type} (read : List Char → Except ParseError α),
          parseBy read limit (Split.explicit text) = parseBy read limit text) := by
  have checks := (refusal?_eq_none_iff limit text).mp accepted
  rcases checks with ⟨-, allowed, guarded, balanced⟩
  have free := Split.placeholder_not_mem_of_allowed allowed
  have allowedAgain := Split.all_isAllowed_explicit allowed
  have guardedAgain := Split.hasMemberAccess_explicit free guarded
  have balancedAgain := imbalance?_eq_none_of_filter
    (Split.filter_isParenthesis_explicit free) balanced
  refine ⟨allowedAgain, guardedAgain, balancedAgain, ?_⟩
  intro short α read
  by_cases empty : text = []
  · subst empty
    rfl
  · have nonempty : Split.explicit text ≠ [] :=
      fun none => empty ((Split.explicit_eq_nil_iff text).mp none)
    have acceptedAgain : refusal? limit (Split.explicit text) = none :=
      (refusal?_eq_none_iff limit _).mpr ⟨short, allowedAgain, guardedAgain, balancedAgain⟩
    have stable : Split.explicit (Split.explicit text) = Split.explicit text := by
      rw [Split.explicit, Split.split_explicit .multiplication free]
      rfl
    rw [parseBy_of_accepted nonempty acceptedAgain, parseBy_of_accepted empty accepted, stable]

theorem parseBy_explicit_of_blanks :
    refusal? 30 "exp(2. 5pi)**-3x(x .1)".toList = none ∧
      (Split.explicit "exp(2. 5pi)**-3x(x .1)".toList).length ≤ (30 : Int) ∧
      (Split.explicit "exp(2. 5pi)**-3x(x .1)".toList).all isAllowed = true ∧
      hasMemberAccess (Split.explicit "exp(2. 5pi)**-3x(x .1)".toList) = false ∧
      imbalance? (Split.explicit "exp(2. 5pi)**-3x(x .1)".toList) = none ∧
      parse 30 (Split.explicit "exp(2. 5pi)**-3x(x .1)".toList) =
        parse 30 "exp(2. 5pi)**-3x(x .1)".toList := by
  have accepted : refusal? 30 "exp(2. 5pi)**-3x(x .1)".toList = none := by decide
  have short : (Split.explicit "exp(2. 5pi)**-3x(x .1)".toList).length ≤ (30 : Int) := by decide
  have written := parseBy_explicit accepted
  exact ⟨accepted, short, written.1, written.2.1, written.2.2.1,
    written.2.2.2 short standard.readExplicit⟩

end Formula
end FormulaLine

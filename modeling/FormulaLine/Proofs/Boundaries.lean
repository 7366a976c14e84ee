import FormulaLine.Proofs.Seams

namespace FormulaLine
namespace Split

open GlyphClass

/-!
# Where factors start

The rules by which a factor starts are ordered and overlap.  On the classes that a
text brings about they come to a table, `Boundary`, whose rows are told apart by the
character before: it closes a parenthesis, or belongs to a number, or is a symbol of
its own.  Behind any other character nothing but a marker starts a factor.  A
character that starts one has the class that it has at the start of a text.

The table holds along a text and not for all classes: by the rules a digit behind a
letter starts a factor, but no text leaves that digit unmasked.

A parenthesis behind a value shows an oddity of the rows.  Behind a number and behind
`π` it starts a factor.  Behind `x` and `e`, which are letters too, it does not, and
goes into the token of the letter as if that were a name that is called.
-/

/-! ## The table -/

/-- A letter begins a name or is a symbol; `π` is a symbol and no letter. -/
def BeginsName (c : Char) : Prop :=
  Glyph.isAsciiLetter c = true ∨ c = 'π'

/-- A factor starts at `c`, which stands behind a character `p` of class
`previous`. -/
inductive Boundary (previous : GlyphClass) (p c : Char) : Prop where
  | marker (written : c = Vocabulary.marker)
  | behindClosing (closing : p = ')')
      (begins : c = '(' ∨ BeginsName c ∨ Glyph.isAsciiDigit c = true)
  | behindDigit (digit : previous.plainDigit = true) (begins : c = '(' ∨ BeginsName c)
  | behindSymbol (symbol : previous.plainSymbol = true)
      (begins : BeginsName c ∨ Glyph.isAsciiDigit c = true)
  | behindConstant (symbol : previous.plainSymbol = true) (constant : p = 'π')
      (opening : c = '(')

theorem not_beginsName_opening : ¬ BeginsName '(' := by
  rintro (letter | constant)
  · exact absurd letter (by decide)
  · exact absurd constant (by decide)

theorem plainDigit_first (c : Char) : (first [c]).plainDigit = Glyph.isAsciiDigit c := by
  simp [first, inheriting, plainDigit]

theorem plainSymbol_first (c : Char) : (first [c]).plainSymbol = Glyph.isSymbol [c] := by
  simp [first, inheriting, plainSymbol]

theorem beginsName_iff (c : Char) :
    BeginsName c ↔ (first [c]).plainSymbol = true ∨ (first [c]).letter = true := by
  rw [plainSymbol_first, (describes_first c).letter]
  constructor
  · rintro (letter | rfl)
    · exact Or.inr letter
    · exact Or.inl (by decide)
  · rintro (symbol | letter)
    · rcases (Glyph.isSymbol_singleton_iff c).mp symbol with rfl | rfl | rfl | rfl | rfl
      all_goals first | exact Or.inr rfl | exact Or.inl (by decide)
    · exact Or.inl letter

theorem constant_iff_of_isSymbol {p : Char} (symbol : Glyph.isSymbol [p] = true) :
    p = 'π' ↔ Glyph.isAsciiLetter p = false := by
  rcases (Glyph.isSymbol_singleton_iff p).mp symbol with rfl | rfl | rfl | rfl | rfl <;> decide

/-! ## The rows, one for each kind of character before -/

section Behind

variable {previous : GlyphClass} {p c : Char}

theorem startsFactor_behind_closing (describes : previous.Describes p) (closing : p = ')')
    (other : c ≠ Vocabulary.marker) :
    startsFactor .multiplication [c] (previous.after [c]) previous = true ↔
      c = '(' ∨ BeginsName c ∨ Glyph.isAsciiDigit c = true := by
  subst closing
  have releases : previous.Releases :=
    describes.releases_of_other (by decide) (by decide) (by decide)
  rw [releases.after_eq_first, beginsName_iff, ← plainDigit_first]
  simp [startsFactor_eq, singleton_eq_markerGlyph_iff, other, describes.closeParen, or_assoc,
    or_left_comm]

theorem startsFactor_behind_digit (describes : previous.Describes p)
    (digit : previous.plainDigit = true) (other : c ≠ Vocabulary.marker) :
    startsFactor .multiplication [c] (previous.after [c]) previous = true ↔
      c = '(' ∨ BeginsName c := by
  have isDigit := describes.isAsciiDigit_of_plainDigit digit
  have notClosing := (describes.parens_eq_false_of_plain (Or.inl digit)).2
  have notLetter : previous.letter = false :=
    describes.letter.trans (Glyph.isAsciiLetter_of_isAsciiDigit isDigit)
  rw [(describes.releases_of_plainDigit digit).after_eq_first, beginsName_iff]
  by_cases opening : c = '('
  · simp [startsFactor_eq, singleton_eq_markerGlyph_iff, opening, notClosing, notLetter, digit]
  · simp [startsFactor_eq, singleton_eq_markerGlyph_iff, other, opening, notClosing, digit]

theorem startsFactor_behind_symbol (describes : previous.Describes p)
    (symbol : previous.plainSymbol = true) (other : c ≠ Vocabulary.marker) :
    startsFactor .multiplication [c] (previous.after [c]) previous = true ↔
      (BeginsName c ∨ Glyph.isAsciiDigit c = true) ∨ p = 'π' ∧ c = '(' := by
  have isSymbol := describes.isSymbol_of_plainSymbol symbol
  have notClosing := (describes.parens_eq_false_of_plain (Or.inr symbol)).2
  have notDigit : previous.plainDigit = false := by
    rw [plainDigit, describes.digit, Glyph.isAsciiDigit_of_isSymbol isSymbol, Bool.false_and]
  rw [(describes.releases_of_plainSymbol symbol).after_eq_first]
  by_cases opening : c = '('
  · subst opening
    rw [constant_iff_of_isSymbol isSymbol, ← describes.letter]
    simp [startsFactor_eq, singleton_eq_markerGlyph_iff, notClosing, symbol, not_beginsName_opening,
      Vocabulary.marker, Glyph.isAsciiDigit]
  · rw [beginsName_iff, ← plainDigit_first]
    simp [startsFactor_eq, singleton_eq_markerGlyph_iff, other, opening, notClosing, notDigit, symbol]

/-- The rules come to the table. -/
theorem startsFactor_iff_boundary (describes : previous.Describes p) :
    startsFactor .multiplication [c] (previous.after [c]) previous = true ↔
      Boundary previous p c := by
  by_cases other : c = Vocabulary.marker
  · subst other
    exact ⟨fun _ => .marker rfl, fun _ => startsFactor_marker _ _ _⟩
  -- The cases are those of the character before, not those of the ordered rules.
  constructor
  · intro starts
    cases closed : previous.closeParen with
    | true =>
        have closing : p = ')' := by simpa [describes.closeParen] using closed
        exact .behindClosing closing ((startsFactor_behind_closing describes closing other).mp starts)
    | false =>
        cases digit : previous.plainDigit with
        | true => exact .behindDigit digit ((startsFactor_behind_digit describes digit other).mp starts)
        | false =>
            cases symbol : previous.plainSymbol with
            | true =>
                rcases (startsFactor_behind_symbol describes symbol other).mp starts with
                  begins | ⟨constant, opening⟩
                · exact .behindSymbol symbol begins
                · exact .behindConstant symbol constant opening
            | false =>
                rw [startsFactor_eq_false_of_idle other closed digit symbol] at starts
                cases starts
  · intro boundary
    cases boundary with
    | marker written => exact absurd written other
    | behindClosing closing begins =>
        exact (startsFactor_behind_closing describes closing other).mpr begins
    | behindDigit digit begins =>
        exact (startsFactor_behind_digit describes digit other).mpr begins
    | behindSymbol symbol begins =>
        exact (startsFactor_behind_symbol describes symbol other).mpr (Or.inl begins)
    | behindConstant symbol constant opening =>
        exact (startsFactor_behind_symbol describes symbol other).mpr (Or.inr ⟨constant, opening⟩)

end Behind

/-- Wherever a character stands in a text, it starts a factor exactly by the table,
and then it has the class that it has at the start of a text. -/
theorem startsFactor_run (before : List Char) (p c : Char) (behind : List Char) :
    ∃ previous current,
      (run (glyphs (before ++ p :: c :: behind)))[before.length]? = some previous ∧
      (run (glyphs (before ++ p :: c :: behind)))[before.length + 1]? = some current ∧
      (startsFactor .multiplication [c] current previous = true ↔ Boundary previous p c) ∧
      (startsFactor .multiplication [c] current previous = true → current = first [c]) := by
  have describes := describes_after (neutral.afterAll before) p
  -- The class behind `p` is the one that the run hands on to `c`.
  have later := getElem?_run (before ++ [p]) c behind
  rw [List.length_append, List.append_assoc, afterAll_append] at later
  exact ⟨_, _, getElem?_run before p (c :: behind), later, startsFactor_iff_boundary describes,
    after_eq_first_of_startsFactor describes⟩

/-- Without the run before it, a digit behind a letter would start a factor. -/
example : startsFactor .multiplication ['2'] { digit := true } { letter := true } = true := by
  decide

/-! ## A parenthesis behind a value -/

/-- The last character, as it is read, belongs to a number or is a symbol of its
own. -/
def EndsValue (text : List Char) : Prop :=
  ∃ k, (run (glyphs (substitute text))).getLast? = some k ∧
    (k.plainDigit = true ∨ k.plainSymbol = true)

theorem startsFactor_opening {previous : GlyphClass} {p : Char} (describes : previous.Describes p)
    (value : previous.plainDigit = true ∨ previous.plainSymbol = true) (policy : SplitPolicy) :
    startsFactor policy ['('] (previous.after ['(']) previous = !Glyph.isAsciiLetter p := by
  have other : '(' ≠ Vocabulary.marker := by decide
  have coarse : startsFactor .multiplication ['('] (previous.after ['(']) previous =
      !Glyph.isAsciiLetter p := by
    apply Bool.eq_iff_iff.mpr
    rw [Bool.not_eq_true']
    rcases value with digit | symbol
    · have isDigit := describes.isAsciiDigit_of_plainDigit digit
      rw [startsFactor_behind_digit describes digit other]
      exact ⟨fun _ => Glyph.isAsciiLetter_of_isAsciiDigit isDigit, fun _ => Or.inl rfl⟩
    · have isSymbol := describes.isSymbol_of_plainSymbol symbol
      rw [startsFactor_behind_symbol describes symbol other, ← constant_iff_of_isSymbol isSymbol]
      simp [not_beginsName_opening, Glyph.isAsciiDigit]
  have notOpening := (describes.parens_eq_false_of_plain value).1
  cases policy with
  | multiplication => exact coarse
  | term => rw [startsFactor_term, notOpening, coarse, Bool.false_or]

section Value

variable {text : List Char}

theorem EndsValue.substitute_ne_nil (ends : EndsValue text) : substitute text ≠ [] := by
  intro none
  rcases ends with ⟨k, last, -⟩
  rw [none] at last
  cases last

theorem EndsValue.ne_nil (ends : EndsValue text) : text ≠ [] := fun none =>
  ends.substitute_ne_nil ((substitute_eq_nil_iff text).mpr none)

theorem EndsValue.exists_last (ends : EndsValue text) :
    ∃ p, (substitute text).getLast? = some p ∧
      (neutral.afterAll (substitute text)).Describes p ∧
      ((neutral.afterAll (substitute text)).plainDigit = true ∨
        (neutral.afterAll (substitute text)).plainSymbol = true) := by
  have nonempty := ends.substitute_ne_nil
  rcases ends with ⟨k, lastClass, value⟩
  have last := List.getLast?_eq_some_getLast nonempty
  rw [getLast?_run nonempty] at lastClass
  rw [← Option.some.inj lastClass] at value
  exact ⟨_, last, describes_afterAll last neutral, value⟩

theorem split_append_parenthesis {policy : SplitPolicy} {starts : Bool} (nonempty : text ≠ [])
    (rule : startsFactor policy ['('] ((neutral.afterAll (substitute text)).after ['('])
      (neutral.afterAll (substitute text)) = starts) :
    split policy (text ++ ['(']) =
      if starts then split policy text ++ [['(']]
      else extendTokens (split policy text) (['('], []) :=
  split_append_character nonempty (unfinished_of_not_mem_finishing (by decide) text) rule

theorem explicit_append_parenthesis {starts : Bool} (nonempty : text ≠ [])
    (rule : startsFactor .multiplication ['('] ((neutral.afterAll (substitute text)).after ['('])
      (neutral.afterAll (substitute text)) = starts) :
    explicit (text ++ ['(']) =
      if starts then explicit text ++ [Vocabulary.marker, '('] else explicit text ++ ['('] := by
  have tokens := split_append_parenthesis nonempty rule
  cases starts with
  | true => exact explicit_append_of_apart (split_ne_nil _ nonempty) tokens
  | false => exact explicit_append_of_joined (split_ne_nil _ nonempty) tokens

end Value

/-- Behind a number or a symbol of its own, a parenthesis is a token of its own, and
is multiplied, if and only if the last character is no letter.  Behind a letter it
is taken into the last token. -/
theorem split_opening {text : List Char} (ends : EndsValue text) (policy : SplitPolicy) :
    ∃ p, (substitute text).getLast? = some p ∧
      (split policy (text ++ ['(']) = split policy text ++ [['(']] ↔
        Glyph.isAsciiLetter p = false) ∧
      (Glyph.isAsciiLetter p = true →
        split policy (text ++ ['(']) = extendTokens (split policy text) (['('], []) ∧
          explicit (text ++ ['(']) = explicit text ++ ['(']) ∧
      (Glyph.isAsciiLetter p = false →
        explicit (text ++ ['(']) = explicit text ++ [Vocabulary.marker, '(']) := by
  rcases ends.exists_last with ⟨p, last, describes, value⟩
  have tokens := split_append_parenthesis ends.ne_nil (startsFactor_opening describes value policy)
  have spelled :=
    explicit_append_parenthesis ends.ne_nil (startsFactor_opening describes value .multiplication)
  refine ⟨p, last, ?_⟩
  cases letter : Glyph.isAsciiLetter p with
  | false =>
      rw [letter] at tokens spelled
      exact ⟨⟨fun _ => rfl, fun _ => tokens⟩, nofun, fun _ => spelled⟩
  | true =>
      rw [letter] at tokens spelled
      refine ⟨⟨fun apart => ?_, nofun⟩, fun _ => ⟨tokens, spelled⟩, nofun⟩
      exact absurd (tokens.symm.trans apart)
        (extendTokens_ne_append (split_ne_nil policy ends.ne_nil) _)

theorem split_opening_of_masks :
    EndsValue "ceil(log2(pie)2pi".toList ∧
    ∃ p, (substitute "ceil(log2(pie)2pi".toList).getLast? = some p ∧
      (split .term ("ceil(log2(pie)2pi".toList ++ ['(']) =
        split .term "ceil(log2(pie)2pi".toList ++ [['(']] ↔ Glyph.isAsciiLetter p = false) ∧
      (Glyph.isAsciiLetter p = true →
        split .term ("ceil(log2(pie)2pi".toList ++ ['(']) =
            extendTokens (split .term "ceil(log2(pie)2pi".toList) (['('], []) ∧
          explicit ("ceil(log2(pie)2pi".toList ++ ['(']) =
            explicit "ceil(log2(pie)2pi".toList ++ ['(']) ∧
      (Glyph.isAsciiLetter p = false →
        explicit ("ceil(log2(pie)2pi".toList ++ ['(']) =
          explicit "ceil(log2(pie)2pi".toList ++ [Vocabulary.marker, '(']) := by
  have ends : EndsValue "ceil(log2(pie)2pi".toList := ⟨first ['π'], by decide, by decide⟩
  exact ⟨ends, split_opening ends .term⟩

/-- Behind a variable a parenthesis is no token of its own. -/
theorem opening_joined_behind_variable :
    EndsValue ['x'] ∧
      split .multiplication (['x'] ++ ['(']) ≠ split .multiplication ['x'] ++ [['(']] :=
  ⟨⟨first ['x'], by decide, by decide⟩, by decide⟩

end Split
end FormulaLine

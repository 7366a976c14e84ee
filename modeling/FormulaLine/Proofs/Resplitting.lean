import FormulaLine.Proofs.Marking

namespace FormulaLine
namespace Split

open GlyphClass

/-!
# Splitting a formula with its multiplications written

Under either policy, the written markers open the tokens that the factors opened
before, and no others.  A character that starts a factor has its class from the
start of a text, and behind a marker it has the same; so both runs go on alike.
The substitutions undo what was shown and find nothing else, since the formula
is a condensed text with markers inserted.
-/

/-- Two runs, one over the text and one over the marked text, that agree in the
class before them cut the same tokens. -/
theorem splitAfter_markAfter (policy : SplitPolicy) {previous : GlyphClass} {p : Char}
    (describes : previous.Describes p) (text : List Char) :
    splitAfter policy previous (glyphs (markAfter previous text)) =
      splitAfter policy previous (glyphs text) := by
  induction text generalizing previous p with
  | nil => rfl
  | cons c rest ih =>
      have later := ih (describes_after previous c)
      cases starts : startsFactor .multiplication [c] (previous.after [c]) previous with
      | false =>
          rw [markAfter_of_continues starts, glyphs_cons, glyphs_cons, splitAfter, splitAfter, later]
      | true =>
          have startsHere := startsFactor_of_multiplication policy starts
          by_cases marker : c = Vocabulary.marker
          · subst marker
            rw [after_marker] at later
            rw [markAfter_marker, glyphs_cons, glyphs_cons, splitAfter, splitAfter, after_marker,
              later]
          · have current : previous.after [c] = first [c] :=
              after_eq_first_of_startsFactor describes starts
            have behindMarker : previous.after markerGlyph = neutral := after_marker previous
            have continues : startsFactor policy [c] (neutral.after [c]) neutral = false :=
              startsFactor_neutral policy marker _
            rw [markAfter_of_starts marker starts, glyphs_cons, glyphs_cons, glyphs_cons,
              splitAfter_of_starts startsHere, splitAfter_of_starts (startsFactor_marker policy _ _)]
            change ([], (written markerGlyph ++
                (splitAfter policy (previous.after markerGlyph) _).1) ::
                (splitAfter policy (previous.after markerGlyph) _).2) = _
            rw [behindMarker, splitAfter_of_continues continues, neutral_after, ← current, later]
            rfl

theorem splitGlyphs_markAfter (policy : SplitPolicy) (text : List Char) :
    splitGlyphs policy (glyphs (markAfter neutral text)) = splitGlyphs policy (glyphs text) := by
  cases text with
  | nil => rfl
  | cons c rest =>
      rw [markAfter_neutral, splitGlyphs_cons, splitGlyphs_cons,
        splitAfter_markAfter policy (describes_first c)]

/-- The substitutions bring a formula with its multiplications written back to
the marked text that it shows. -/
theorem substitute_explicit {text : List Char} (free : Vocabulary.expPlaceholder ∉ text) :
    substitute (explicit text) = markAfter neutral (substitute text) := by
  have constants : ¬ "pi".toList <:+: explicit text := by
    intro found
    have unmarked := (marked_explicit free).infix_source (by decide) found
    exact constant_not_infix_condense text unmarked
  have hidden : ¬ "exp".toList <:+: markAfter neutral (substitute text) := by
    intro found
    have unmarked := (marked_markAfter neutral _).infix_source (by decide) found
    exact exp_not_infix_substitute text unmarked
  have powers : ¬ "**".toList <:+: markAfter neutral (substitute text) :=
    power_not_infix_markAfter (power_not_infix_substitute text) neutral
  rw [explicit_eq] at constants ⊢
  exact substitute_restore constants (power_not_infix_restore powers) hidden

theorem split_explicit (policy : SplitPolicy) {text : List Char}
    (free : Vocabulary.expPlaceholder ∉ text) :
    split policy (explicit text) = split policy text := by
  rw [split, substitute_explicit free, splitGlyphs_markAfter]
  rfl

/-- A formula with its multiplications written has the tokens of the formula as
it was typed, and has no more multiplications to write. -/
theorem explicit_stable {text : List Char} (free : Vocabulary.expPlaceholder ∉ text) :
    (∀ policy, split policy (explicit text) = split policy text) ∧
      explicit (explicit text) = explicit text := by
  constructor
  · intro policy
    exact split_explicit policy free
  · rw [explicit, split_explicit .multiplication free]
    rfl

theorem explicit_stable_of_markers :
    Vocabulary.expPlaceholder ∉ "*2exp(xpi)e3***log2(x)*".toList ∧
      (∀ policy, split policy (explicit "*2exp(xpi)e3***log2(x)*".toList) =
        split policy "*2exp(xpi)e3***log2(x)*".toList) ∧
      explicit (explicit "*2exp(xpi)e3***log2(x)*".toList) =
        explicit "*2exp(xpi)e3***log2(x)*".toList := by
  have free : Vocabulary.expPlaceholder ∉ "*2exp(xpi)e3***log2(x)*".toList := by decide
  exact ⟨free, explicit_stable free⟩

/-- A typed placeholder is shown as `exp`, whose last letter may then begin a
constant. -/
example : split .multiplication (explicit [Vocabulary.expPlaceholder, 'i']) ≠
    split .multiplication [Vocabulary.expPlaceholder, 'i'] := by
  decide

end Split
end FormulaLine

import FormulaLine.Proofs.Boundaries

namespace FormulaLine
namespace Split

open GlyphClass

/-!
# Calls behind a factor

Behind a closing parenthesis, a number or a variable, the name of a function
starts a factor by its first letter, and the rest of the name and its opening
parenthesis stay with that letter.

The exponential function is the exception.  Its name is hidden behind a
placeholder, which belongs to no class of characters that starts a factor, so its
call is read as part of the token before it, and no multiplication is written
there.
-/

/-! ## Where a factor ends -/

/-- The last character, as it is read, closes a parenthesis or belongs to a number
or to a variable of its own. -/
def EndsFactor (text : List Char) : Prop :=
  (substitute text).getLast? = some ')' ∨
    ∃ k, (run (glyphs (substitute text))).getLast? = some k ∧
      (k.plainDigit = true ∨ k.plainSymbol = true)

/-- The class of the last character of a factor. -/
structure FactorEnd (k : GlyphClass) : Prop where
  releases : k.Releases
  kind : k.closeParen = true ∨ k.plainDigit = true ∨ k.plainSymbol = true

theorem EndsFactor.substitute_ne_nil {text : List Char} (ends : EndsFactor text) :
    substitute text ≠ [] := by
  rcases ends with closing | value
  · intro none
    rw [none] at closing
    cases closing
  · exact EndsValue.substitute_ne_nil value

theorem EndsFactor.factorEnd {text : List Char} (ends : EndsFactor text) :
    FactorEnd (neutral.afterAll (substitute text)) := by
  rcases ends with closing | value
  · have describes := describes_afterAll closing neutral
    exact ⟨describes.releases_of_other (by decide) (by decide) (by decide),
      Or.inl describes.closeParen⟩
  · rcases EndsValue.exists_last value with ⟨p, -, describes, digit | symbol⟩
    · exact ⟨describes.releases_of_plainDigit digit, Or.inr (Or.inl digit)⟩
    · exact ⟨describes.releases_of_plainSymbol symbol, Or.inr (Or.inr symbol)⟩

/-! ## What starts behind a factor -/

theorem FactorEnd.startsFactor_letter {k : GlyphClass} (factorEnd : FactorEnd k) {c : Char}
    (letter : Glyph.isAsciiLetter c = true) (policy : SplitPolicy) :
    startsFactor policy [c] (k.after [c]) k = true := by
  apply startsFactor_of_multiplication policy
  have current : (k.after [c]).letter = true := (describes_after k c).letter.trans letter
  have opening : [c] ≠ ['('] := by
    intro same
    rw [(List.cons.inj same).1] at letter
    exact absurd letter (by decide)
  rw [startsFactor_eq]
  by_cases marker : [c] = markerGlyph
  · simp [marker]
  · rcases factorEnd.kind with closing | digit | symbol
    · simp [marker, closing, current]
    · simp [marker, opening, digit, current]
    · simp [marker, opening, symbol, current]

/-- The placeholder starts no factor, whatever stands before it. -/
theorem startsFactor_placeholder (previous : GlyphClass) :
    startsFactor .multiplication [Vocabulary.expPlaceholder]
      (previous.after [Vocabulary.expPlaceholder]) previous = false := by
  rw [after_eq_first_of_other previous (by decide) (by decide)]
  have current : first [Vocabulary.expPlaceholder] = neutral := by decide
  have marker : [Vocabulary.expPlaceholder] ≠ markerGlyph := by decide
  have opening : [Vocabulary.expPlaceholder] ≠ ['('] := by decide
  rw [current]
  simp [startsFactor_eq, marker, opening, neutral, plainSymbol, plainDigit]

/-! ## Names and their parentheses -/

theorem opening_not_mem_spelling (f : Builtin) : '(' ∉ f.spelling := by
  cases f <;> decide

/-- No name finishes a spelling that is substituted. -/
theorem exists_spelling_cons (f : Builtin) : ∃ c rest, f.spelling = c :: rest ∧ c ∉ finishing := by
  cases f <;> exact ⟨_, _, rfl, by decide⟩

/-- What a formula writes to call a function. -/
def callOf (f : Builtin) : List Char :=
  f.spelling ++ ['(']

theorem not_prefix_callOf (f : Builtin) : ∀ c ∈ finishing, ¬ [c] <+: callOf f := by
  rcases exists_spelling_cons f with ⟨c, rest, name, other⟩
  rw [callOf, name]
  exact not_prefix_of_not_mem_finishing other

theorem substitute_callOf {f : Builtin} (other : f ≠ .exp) : substitute (callOf f) = callOf f := by
  cases f <;> first | exact absurd rfl other | decide

/-- Behind its first letter, a call is one token. -/
theorem splitAfter_callOf {f : Builtin} (other : f ≠ .exp) :
    ∃ c rest, callOf f = c :: rest ∧ Glyph.isAsciiLetter c = true ∧
      c ≠ Vocabulary.marker ∧
      splitAfter .multiplication (first [c]) (glyphs rest) = (rest, []) := by
  cases f <;> first
    | exact absurd rfl other
    | exact ⟨_, _, rfl, by decide, by decide, rfl⟩

theorem FactorEnd.splitAfter_callOf {k : GlyphClass} (factorEnd : FactorEnd k) {f : Builtin}
    (other : f ≠ .exp) :
    splitAfter .multiplication k (glyphs (substitute (callOf f))) = ([], [callOf f]) := by
  rw [substitute_callOf other]
  rcases Split.splitAfter_callOf other with ⟨c, rest, call, letter, notMarker, whole⟩
  have starts := factorEnd.startsFactor_letter letter .multiplication
  have current : k.after [c] = first [c] := factorEnd.releases.after_eq_first c
  rw [call, glyphs_cons, splitAfter_of_starts starts, current, whole, written_of_ne notMarker,
    List.singleton_append]

theorem splitAfter_exp (k : GlyphClass) :
    splitAfter .multiplication k (glyphs (substitute (callOf .exp))) =
      (substitute (callOf .exp), []) := by
  have hidden : substitute (callOf .exp) = [Vocabulary.expPlaceholder, '('] := by decide
  have current : k.after [Vocabulary.expPlaceholder] = neutral :=
    (after_eq_first_of_other k (by decide) (by decide)).trans (by decide)
  rw [hidden, glyphs_cons, splitAfter_of_continues (startsFactor_placeholder k), current]
  decide

theorem restore_substitute_spelling (f : Builtin) : restore (substitute f.spelling) = f.spelling := by
  cases f <;> decide

theorem restore_substitute_callOf (f : Builtin) : restore (substitute (callOf f)) = callOf f := by
  have apart : ∀ c ∈ finishing, ¬ [c] <+: ['('] := not_prefix_of_not_mem_finishing (by decide)
  rw [callOf, substitute_append apart, restore_append, restore_substitute_spelling]
  rfl

section Behind

variable {text : List Char}

theorem EndsFactor.ne_nil (ends : EndsFactor text) : text ≠ [] := fun none =>
  ends.substitute_ne_nil ((substitute_eq_nil_iff text).mpr none)

theorem split_append_callOf (ends : EndsFactor text) {f : Builtin} (other : f ≠ .exp) :
    split .multiplication (text ++ callOf f) = split .multiplication text ++ [callOf f] := by
  have tokensNonempty := split_ne_nil .multiplication ends.ne_nil
  have shownCall : restore (callOf f) = callOf f := by
    rw [← substitute_callOf other, restore_substitute_callOf, substitute_callOf other]
  rw [split_append .multiplication ends.ne_nil (not_prefix_callOf f),
    ends.factorEnd.splitAfter_callOf other, restoreBehind, List.map_singleton, shownCall]
  exact extendTokens_opened tokensNonempty [callOf f]

theorem split_append_exp (nonempty : text ≠ []) :
    split .multiplication (text ++ callOf .exp) =
      extendTokens (split .multiplication text) (callOf .exp, []) := by
  rw [split_append .multiplication nonempty (not_prefix_callOf .exp), splitAfter_exp, restoreBehind,
    restore_substitute_callOf]
  rfl

theorem explicit_append_exp (nonempty : text ≠ []) :
    explicit (text ++ callOf .exp) = explicit text ++ callOf .exp :=
  explicit_append_of_joined (split_ne_nil .multiplication nonempty) (split_append_exp nonempty)

theorem explicit_append_callOf (ends : EndsFactor text) {f : Builtin} (other : f ≠ .exp) :
    explicit (text ++ callOf f) = explicit text ++ Vocabulary.marker :: callOf f :=
  explicit_append_of_apart (split_ne_nil .multiplication ends.ne_nil)
    (split_append_callOf ends other)

/-- Behind a factor the call of a function is a token of its own, and is multiplied
with what stands before it, if and only if the function is not the exponential
function.  The call of that one is taken into the last token. -/
theorem split_call (ends : EndsFactor text) (f : Builtin) :
    (split .multiplication (text ++ callOf f) = split .multiplication text ++ [callOf f] ↔
        f ≠ .exp) ∧
      (explicit (text ++ callOf f) = explicit text ++ Vocabulary.marker :: callOf f ↔
        f ≠ .exp) ∧
      explicit (text ++ callOf .exp) = explicit text ++ callOf .exp := by
  have tokensNonempty := split_ne_nil .multiplication ends.ne_nil
  refine ⟨⟨?_, split_append_callOf ends⟩, ⟨?_, explicit_append_callOf ends⟩,
    explicit_append_exp ends.ne_nil⟩
  · rintro separate rfl
    rw [split_append_exp ends.ne_nil] at separate
    have lengths := congrArg List.length separate
    rw [length_extendTokens tokensNonempty, List.length_append] at lengths
    simp at lengths
  · rintro multiplied rfl
    rw [explicit_append_exp ends.ne_nil] at multiplied
    have lengths := congrArg List.length multiplied
    rw [List.length_append, List.length_append, List.length_cons] at lengths
    omega

end Behind

theorem split_call_of_nested :
    EndsFactor "*log2(pie)x".toList ∧
      (split .multiplication ("*log2(pie)x".toList ++ callOf .log10) =
        split .multiplication "*log2(pie)x".toList ++ [callOf .log10] ↔ Builtin.log10 ≠ .exp) ∧
      (explicit ("*log2(pie)x".toList ++ callOf .log10) =
        explicit "*log2(pie)x".toList ++ Vocabulary.marker :: callOf .log10 ↔
          Builtin.log10 ≠ .exp) ∧
      explicit ("*log2(pie)x".toList ++ callOf .exp) =
        explicit "*log2(pie)x".toList ++ callOf .exp := by
  have ends : EndsFactor "*log2(pie)x".toList := Or.inr ⟨first ['x'], by decide, by decide⟩
  exact ⟨ends, split_call ends .log10⟩

/-- Behind a number the call of the exponential function is no token of its own. -/
theorem exp_joined_behind_number :
    EndsFactor ['2'] ∧ split .multiplication (['2'] ++ callOf .exp) ≠
      split .multiplication ['2'] ++ [callOf .exp] :=
  ⟨Or.inr ⟨first ['2'], by decide, by decide⟩, by decide⟩

end Split
end FormulaLine

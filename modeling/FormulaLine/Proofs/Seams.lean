import FormulaLine.Proofs.Tokens
import FormulaLine.Proofs.Continuation

namespace FormulaLine
namespace Split

open GlyphClass

/-!
# Markers and typed characters

The splitter goes from left to right and revises nothing.  The substitutions before it
read the whole text, and where two texts are put together a spelling may come up that
neither of them had.  At two kinds of seam the characters beside it rule this out.

A marker is part of no spelling but the power, and that needs a second marker.  It opens
just one token, under either policy, and behind it the classes are those of the start of
a text.  So a marker with no marker next to it keeps the tokens of the two texts apart
(`split_separated`).

A character that is typed behind a text is part of no spelling unless it finishes one:
the text before it is then substituted as it was, since every spelling is looked for from
the left.  The last token may take the character in, and the others stay (`split_concat`).
-/

/-! ## A marker between two texts -/

section Separated

variable {left right : List Char}

/-- No spelling lies across a marker without a marker next to it. -/
theorem substitute_separated (ends : ¬ markerGlyph <:+ left) (starts : ¬ markerGlyph <+: right) :
    substitute (left ++ Vocabulary.marker :: right) =
      substitute left ++ Vocabulary.marker :: substitute right := by
  have constants : Text.replaceAll "pi".toList ['π'] (left ++ Vocabulary.marker :: right) =
      Text.replaceAll "pi".toList ['π'] left ++
        Vocabulary.marker :: Text.replaceAll "pi".toList ['π'] right :=
    Text.replaceAll_around (by decide) (by decide) left right
  have endsLater : ¬ markerGlyph <:+ Text.replaceAll "pi".toList ['π'] left := fun found =>
    ends (Text.suffix_of_suffix_replaceAll (by decide) (by decide) found)
  have startsLater : ¬ markerGlyph <+: Text.replaceAll "pi".toList ['π'] right := fun found =>
    starts (Text.prefix_of_prefix_replaceAll (by decide) (by decide) found)
  have powers : condense (left ++ Vocabulary.marker :: right) =
      condense left ++ Vocabulary.marker :: condense right := by
    rw [condense, constants]
    exact Text.replaceAll_doubled_around endsLater startsLater
  rw [substitute_eq, powers]
  exact Text.replaceAll_around (by decide) (by decide) _ _

theorem splitAfter_marker (policy : SplitPolicy) (previous : GlyphClass) (rest : List Char) :
    splitAfter policy previous (glyphs (Vocabulary.marker :: rest)) =
      ([], (splitAfter policy neutral (glyphs rest)).1 ::
        (splitAfter policy neutral (glyphs rest)).2) := by
  rw [glyphs_cons, splitAfter_of_starts (startsFactor_marker policy _ _), after_marker]
  rfl

/-- Behind a marker a text has the tokens that it has by itself. -/
theorem splitAfter_neutral_eq (policy : SplitPolicy) {text : List Char} (nonempty : text ≠ [])
    (starts : ¬ markerGlyph <+: text) :
    (splitAfter policy neutral (glyphs text)).1 :: (splitAfter policy neutral (glyphs text)).2 =
      splitGlyphs policy (glyphs text) := by
  rcases List.exists_cons_of_ne_nil nonempty with ⟨c, rest, rfl⟩
  have other : c ≠ Vocabulary.marker := by
    rintro rfl
    exact starts (List.prefix_append _ rest)
  rw [splitGlyphs_cons, glyphs_cons, splitAfter_of_continues (startsFactor_neutral policy other _),
    written_of_ne other, neutral_after]
  rfl

theorem split_append_marker_append (policy : SplitPolicy) (leftNonempty : left ≠ [])
    (ends : ¬ markerGlyph <:+ left) (rightNonempty : right ≠ [])
    (starts : ¬ markerGlyph <+: right) :
    split policy (left ++ Vocabulary.marker :: right) = split policy left ++ split policy right := by
  have sourceNonempty : substitute right ≠ [] := fun none =>
    rightNonempty ((substitute_eq_nil_iff right).mp none)
  have sourceStarts : ¬ markerGlyph <+: substitute right := fun found =>
    starts (prefix_of_prefix_substitute (by decide) (by decide) (by decide) found)
  rw [split_append_of_substitute policy leftNonempty (substitute_separated ends starts),
    splitAfter_marker, splitAfter_neutral_eq policy sourceNonempty sourceStarts]
  exact extendTokens_opened (split_ne_nil policy leftNonempty) _

theorem explicit_append_marker_append (ends : ¬ markerGlyph <:+ left)
    (starts : ¬ markerGlyph <+: right) :
    explicit (left ++ Vocabulary.marker :: right) =
      explicit left ++ Vocabulary.marker :: explicit right := by
  rw [explicit_eq, explicit_eq, explicit_eq, substitute_separated ends starts, markAfter_append,
    markAfter_marker, restore_append, restore_cons, shown_marker, List.singleton_append]

/-- A written marker keeps apart what it stands between: the tokens of the two texts come
one behind the other, and so do the texts with their multiplications written. -/
theorem split_separated (leftNonempty : left ≠ []) (ends : ¬ markerGlyph <:+ left)
    (rightNonempty : right ≠ []) (starts : ¬ markerGlyph <+: right) :
    (∀ policy, split policy (left ++ Vocabulary.marker :: right) =
        split policy left ++ split policy right) ∧
      explicit (left ++ Vocabulary.marker :: right) =
        explicit left ++ Vocabulary.marker :: explicit right :=
  ⟨fun policy => split_append_marker_append policy leftNonempty ends rightNonempty starts,
    explicit_append_marker_append ends starts⟩

end Separated

theorem split_separated_of_masks :
    let left := "2***ceil(exp(p".toList
    let right := "i2log2e**x*".toList
    left ≠ [] ∧ ¬ markerGlyph <:+ left ∧ right ≠ [] ∧ ¬ markerGlyph <+: right ∧
      (∀ policy, split policy (left ++ Vocabulary.marker :: right) =
        split policy left ++ split policy right) ∧
      explicit (left ++ Vocabulary.marker :: right) =
        explicit left ++ Vocabulary.marker :: explicit right := by
  have leftNonempty : "2***ceil(exp(p".toList ≠ [] := by decide
  have ends : ¬ markerGlyph <:+ "2***ceil(exp(p".toList := by decide
  have rightNonempty : "i2log2e**x*".toList ≠ [] := by decide
  have starts : ¬ markerGlyph <+: "i2log2e**x*".toList := by decide
  exact ⟨leftNonempty, ends, rightNonempty, starts,
    split_separated leftNonempty ends rightNonempty starts⟩

/-- Next to another marker, a marker is half of a power. -/
example : split .multiplication ("2*".toList ++ Vocabulary.marker :: "3".toList) ≠
    split .multiplication "2*".toList ++ split .multiplication "3".toList := by
  decide

/-! ## A character that is typed -/

section Typed

variable {text : List Char} {c : Char}

/-- The text with the typed character ends in none of the spellings that are
substituted. -/
def Unfinished (text : List Char) (c : Char) : Prop :=
  ∀ substitution ∈ Vocabulary.substitutions, ¬ substitution.1 <:+ text ++ [c]

theorem unfinished_of_not_mem_finishing (other : c ∉ finishing) (text : List Char) :
    Unfinished text c := by
  intro substitution member found
  have lasts : ∃ d ∈ finishing, [d] <:+ substitution.1 := by
    simp only [Vocabulary.substitutions, List.mem_cons, List.not_mem_nil, or_false] at member
    rcases member with rfl | rfl | rfl
    · exact ⟨'i', by decide, ['p'], rfl⟩
    · exact ⟨'*', by decide, ['*'], rfl⟩
    · exact ⟨'p', by decide, ['e', 'x'], rfl⟩
  rcases lasts with ⟨d, finishes, ends⟩
  rcases ends.trans found with ⟨before, same⟩
  have last : d = c := (List.cons.inj (List.append_inj' same rfl).2).1
  exact other (last ▸ finishes)

/-- What finishes no spelling of the typed text finishes none where some are already
substituted. -/
theorem substitute_concat (unfinished : Unfinished text c) :
    substitute (text ++ [c]) = substitute text ++ [c] := by
  have constants : Text.replaceAll "pi".toList ['π'] (text ++ [c]) =
      Text.replaceAll "pi".toList ['π'] text ++ [c] :=
    Text.replaceAll_concat (by decide) (unfinished ("pi".toList, ['π']) (by decide))
  have powers : condense (text ++ [c]) = condense text ++ [c] := by
    rw [condense, constants]
    refine Text.replaceAll_concat (by decide) fun found => ?_
    rw [← constants] at found
    exact unfinished ("**".toList, ['^']) (by decide)
      (Text.suffix_of_suffix_replaceAll (by decide) (by decide) found)
  rw [substitute_eq, powers]
  refine Text.replaceAll_concat (by decide) fun found => ?_
  rw [← powers] at found
  exact unfinished ("exp".toList, [Vocabulary.expPlaceholder]) (by decide)
    (Text.suffix_of_suffix_replaceAll (by decide) (by decide)
      (Text.suffix_of_suffix_replaceAll (by decide) (by decide) found))

/-- What a typed character adds to the tokens: a marker adds nothing, and the
placeholder adds what it stands for. -/
def added (c : Char) : List Char :=
  if c = Vocabulary.marker then [] else shown c

theorem restore_written (c : Char) : restore (written [c]) = added c := by
  by_cases marker : c = Vocabulary.marker
  · subst marker
    rfl
  · rw [written_of_ne marker, added, if_neg marker, restore_cons]
    exact List.append_nil _

/-- A typed character that finishes no spelling makes a token of its own where it starts a
factor, and goes into the last token elsewhere. -/
theorem split_append_character {policy : SplitPolicy} {starts : Bool} (nonempty : text ≠ [])
    (unfinished : Unfinished text c)
    (rule : startsFactor policy [c] ((neutral.afterAll (substitute text)).after [c])
      (neutral.afterAll (substitute text)) = starts) :
    split policy (text ++ [c]) =
      if starts then split policy text ++ [added c]
      else extendTokens (split policy text) (added c, []) := by
  rw [split_append_of_substitute policy nonempty (substitute_concat unfinished), glyphs_cons,
    ← restore_written]
  cases starts with
  | true =>
      rw [splitAfter_of_starts rule, if_pos rfl, ← extendTokens_opened (split_ne_nil policy nonempty)]
      exact congrArg (fun token => extendTokens _ ([], [restore token])) (List.append_nil _)
  | false =>
      rw [splitAfter_of_continues rule, if_neg Bool.false_ne_true]
      exact congrArg (fun token => extendTokens _ (restore token, [])) (List.append_nil _)

/-- A typed character that finishes no spelling leaves all tokens but the last as they
are.  Either it extends the last token, which a marker never does, or the last token
stays as well and the character makes one new token. -/
theorem split_concat (policy : SplitPolicy) (nonempty : text ≠ []) (unfinished : Unfinished text c) :
    ∃ before last, split policy text = before ++ [last] ∧
      (c ≠ Vocabulary.marker ∧ split policy (text ++ [c]) = before ++ [last ++ added c] ∨
        split policy (text ++ [c]) = before ++ [last, added c]) := by
  rcases (List.eq_nil_or_concat (split policy text)).resolve_left (split_ne_nil policy nonempty)
    with ⟨before, last, tokens⟩
  rw [List.concat_eq_append] at tokens
  refine ⟨before, last, tokens, ?_⟩
  cases starts : startsFactor policy [c] ((neutral.afterAll (substitute text)).after [c])
      (neutral.afterAll (substitute text)) with
  | true =>
      right
      rw [split_append_character nonempty unfinished starts, if_pos rfl, tokens,
        List.append_assoc]
      rfl
  | false =>
      left
      refine ⟨ne_marker_of_continues starts, ?_⟩
      rw [split_append_character nonempty unfinished starts, if_neg Bool.false_ne_true, tokens,
        extendTokens_concat]

end Typed

theorem split_concat_of_placeholder :
    let text := "x**exp(log2ex".toList
    let c := Vocabulary.expPlaceholder
    text ≠ [] ∧ Unfinished text c ∧
      ∃ before last, split .term text = before ++ [last] ∧
        (c ≠ Vocabulary.marker ∧ split .term (text ++ [c]) = before ++ [last ++ added c] ∨
          split .term (text ++ [c]) = before ++ [last, added c]) := by
  have nonempty : "x**exp(log2ex".toList ≠ [] := by decide
  have unfinished : Unfinished "x**exp(log2ex".toList Vocabulary.expPlaceholder := by
    unfold Unfinished
    decide
  exact ⟨nonempty, unfinished, split_concat .term nonempty unfinished⟩

/-- A character that finishes a spelling can change more than the last token: with `exp`
the two factors `e` and `x` are gone. -/
example : split .multiplication "2ex".toList = ["2", "e", "x"].map String.toList ∧
    split .multiplication "2exp".toList = ["2exp"].map String.toList := by
  decide

end Split
end FormulaLine

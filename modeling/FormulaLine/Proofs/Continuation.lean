import FormulaLine.Proofs.Marking

namespace FormulaLine
namespace Split

open GlyphClass

/-!
# A text that goes on

The splitter never revises a decision.  What it makes of a text that goes on is
therefore what it made of the text, followed by what it makes of the rest from the
class of the last character on: the open token takes in the first part of the
rest, and the tokens that the rest opens come behind it.

The substitutions go on alike, as long as the rest does not finish a spelling that
the text has begun.
-/

/-! ## The classes of a text that goes on -/

theorem run_eq_runAfter (text : List Char) :
    run (glyphs text) = neutral.runAfter (glyphs text) := by
  cases text with
  | nil => rfl
  | cons c rest => rw [glyphs_cons, run, runAfter, neutral_after]

theorem length_runAfter (previous : GlyphClass) (text : List Char) :
    (previous.runAfter (glyphs text)).length = text.length := by
  induction text generalizing previous with
  | nil => rfl
  | cons c rest ih => rw [glyphs_cons, runAfter, List.length_cons, ih, List.length_cons]

theorem runAfter_append (previous : GlyphClass) (left right : List Char) :
    previous.runAfter (glyphs (left ++ right)) =
      previous.runAfter (glyphs left) ++ (previous.afterAll left).runAfter (glyphs right) := by
  induction left generalizing previous with
  | nil => rfl
  | cons c left ih =>
      rw [List.cons_append, glyphs_cons, glyphs_cons, runAfter, runAfter, ih, afterAll_cons,
        List.cons_append]

/-- The class of a character, wherever it stands. -/
theorem getElem?_run (before : List Char) (c : Char) (behind : List Char) :
    (run (glyphs (before ++ c :: behind)))[before.length]? =
      some ((neutral.afterAll before).after [c]) := by
  have here := length_runAfter neutral before
  rw [run_eq_runAfter, runAfter_append, List.getElem?_append_right (Nat.le_of_eq here), here,
    Nat.sub_self, glyphs_cons, runAfter, List.getElem?_cons_zero]

theorem getLast?_runAfter (previous : GlyphClass) (text : List Char) :
    (previous :: previous.runAfter (glyphs text)).getLast? = some (previous.afterAll text) := by
  induction text generalizing previous with
  | nil => rfl
  | cons c rest ih => exact (List.getLast?_cons_cons).trans (ih (previous.after [c]))

theorem getLast?_run {text : List Char} (nonempty : text ≠ []) :
    (run (glyphs text)).getLast? = some (neutral.afterAll text) := by
  rcases List.exists_cons_of_ne_nil nonempty with ⟨c, rest, rfl⟩
  rw [glyphs_cons, run, afterAll_cons, neutral_after]
  exact getLast?_runAfter (first [c]) rest

theorem describes_afterAll {text : List Char} {c : Char} (last : text.getLast? = some c)
    (previous : GlyphClass) : (previous.afterAll text).Describes c := by
  rcases List.getLast?_eq_some_iff.mp last with ⟨before, rfl⟩
  rw [afterAll_concat]
  exact describes_after _ c

/-! ## Tokens that go on -/

/-- The tokens with what comes behind them: the last token takes in the rest of an
open token, and further tokens follow. -/
def extendTokens : List (List Char) → List Char × List (List Char) → List (List Char)
  | [], behind => behind.1 :: behind.2
  | [token], behind => (token ++ behind.1) :: behind.2
  | token :: next :: others, behind => token :: extendTokens (next :: others) behind

theorem extendTokens_cons (token : List Char) {others : List (List Char)} (nonempty : others ≠ [])
    (behind : List Char × List (List Char)) :
    extendTokens (token :: others) behind = token :: extendTokens others behind := by
  rcases List.exists_cons_of_ne_nil nonempty with ⟨next, more, rfl⟩
  rfl

theorem extendTokens_ne_nil (tokens : List (List Char)) (behind : List Char × List (List Char)) :
    extendTokens tokens behind ≠ [] := by
  cases tokens with
  | nil => exact List.cons_ne_nil _ _
  | cons token others => cases others <;> exact List.cons_ne_nil _ _

/-- Where the rest opens a token at once, the tokens stay as they are. -/
theorem extendTokens_opened {tokens : List (List Char)} (nonempty : tokens ≠ [])
    (more : List (List Char)) : extendTokens tokens ([], more) = tokens ++ more := by
  induction tokens with
  | nil => exact absurd rfl nonempty
  | cons token others ih =>
      by_cases last : others = []
      · subst last
        rw [extendTokens, List.append_nil, List.singleton_append]
      · rw [extendTokens_cons token last, ih last, List.cons_append]

theorem extendTokens_concat (tokens : List (List Char)) (token : List Char)
    (behind : List Char × List (List Char)) :
    extendTokens (tokens ++ [token]) behind = tokens ++ (token ++ behind.1) :: behind.2 := by
  induction tokens with
  | nil => rfl
  | cons first others ih =>
      rw [List.cons_append, extendTokens_cons _ (by simp), ih, List.cons_append]

theorem length_extendTokens {tokens : List (List Char)} (nonempty : tokens ≠ [])
    (behind : List Char × List (List Char)) :
    (extendTokens tokens behind).length = tokens.length + behind.2.length := by
  induction tokens with
  | nil => exact absurd rfl nonempty
  | cons token others ih =>
      by_cases last : others = []
      · subst last
        rw [extendTokens, List.length_cons, List.length_singleton, Nat.add_comm]
      · rw [extendTokens_cons token last, List.length_cons, ih last, List.length_cons,
          Nat.add_right_comm]

/-- A part that is taken into the last token is no token of its own. -/
theorem extendTokens_ne_append {tokens : List (List Char)} (nonempty : tokens ≠ [])
    (part : List Char) : extendTokens tokens (part, []) ≠ tokens ++ [part] := by
  intro same
  have lengths := congrArg List.length same
  rw [length_extendTokens nonempty, List.length_append] at lengths
  simp at lengths

/-- What comes behind the tokens, as it is shown. -/
def restoreBehind (behind : List Char × List (List Char)) : List Char × List (List Char) :=
  (restore behind.1, behind.2.map restore)

theorem map_restore_extendTokens (tokens : List (List Char))
    (behind : List Char × List (List Char)) :
    (extendTokens tokens behind).map restore =
      extendTokens (tokens.map restore) (restoreBehind behind) := by
  induction tokens with
  | nil => rfl
  | cons token others ih =>
      cases others with
      | nil =>
          rw [extendTokens, List.map_cons, restore_append]
          rfl
      | cons next more =>
          rw [extendTokens, List.map_cons, ih]
          rfl

theorem intercalate_append_cons (token first : List Char) (more : List (List Char)) :
    markerGlyph.intercalate ((token ++ first) :: more) =
      token ++ markerGlyph.intercalate (first :: more) := by
  cases more with
  | nil => rw [List.intercalate_singleton, List.intercalate_singleton]
  | cons next others =>
      rw [List.intercalate_cons_cons, List.intercalate_cons_cons, List.append_assoc,
        List.append_assoc, List.append_assoc]

theorem intercalate_extendTokens {tokens : List (List Char)} (nonempty : tokens ≠ [])
    (behind : List Char × List (List Char)) :
    markerGlyph.intercalate (extendTokens tokens behind) =
      markerGlyph.intercalate tokens ++ markerGlyph.intercalate (behind.1 :: behind.2) := by
  induction tokens with
  | nil => exact absurd rfl nonempty
  | cons token others ih =>
      by_cases last : others = []
      · subst last
        rw [extendTokens, intercalate_append_cons, List.intercalate_singleton]
      · rw [extendTokens_cons token last,
          List.intercalate_cons_of_ne_nil (extendTokens_ne_nil others behind), ih last,
          List.intercalate_cons_of_ne_nil last, List.append_assoc _ _ (List.intercalate _ _)]

/-! ## The splitter -/

/-- The open token, with `before` already in it, and the tokens behind it. -/
theorem splitAfter_append (policy : SplitPolicy) (previous : GlyphClass)
    (left right before : List Char) :
    (before ++ (splitAfter policy previous (glyphs (left ++ right))).1) ::
        (splitAfter policy previous (glyphs (left ++ right))).2 =
      extendTokens ((before ++ (splitAfter policy previous (glyphs left)).1) ::
          (splitAfter policy previous (glyphs left)).2)
        (splitAfter policy (previous.afterAll left) (glyphs right)) := by
  induction left generalizing previous before with
  | nil =>
      rw [show splitAfter policy previous (glyphs []) = ([], []) from rfl, List.append_nil]
      rfl
  | cons c left ih =>
      rw [List.cons_append, glyphs_cons, glyphs_cons, afterAll_cons]
      cases starts : startsFactor policy [c] (previous.after [c]) previous with
      | true =>
          rw [splitAfter_of_starts starts, splitAfter_of_starts starts,
            extendTokens_cons _ (List.cons_ne_nil _ _), ih]
      | false =>
          rw [splitAfter_of_continues starts, splitAfter_of_continues starts, ← List.append_assoc,
            ← List.append_assoc, ih]

theorem splitGlyphs_append (policy : SplitPolicy) {left : List Char} (nonempty : left ≠ [])
    (right : List Char) :
    splitGlyphs policy (glyphs (left ++ right)) =
      extendTokens (splitGlyphs policy (glyphs left))
        (splitAfter policy (neutral.afterAll left) (glyphs right)) := by
  rcases List.exists_cons_of_ne_nil nonempty with ⟨c, rest, rfl⟩
  rw [List.cons_append, splitGlyphs_cons, splitGlyphs_cons, afterAll_cons, neutral_after]
  exact splitAfter_append policy (first [c]) rest right [c]

/-! ## Texts that open no token -/

/-- Behind a glyph of class `previous` the whole text goes into the open token. -/
def Stays (previous : GlyphClass) (text : List Char) : Prop :=
  splitAfter .multiplication previous (glyphs text) = (text, [])

instance (previous : GlyphClass) (text : List Char) : Decidable (Stays previous text) :=
  inferInstanceAs (Decidable (splitAfter .multiplication previous (glyphs text) = (text, [])))

theorem stays_nil (previous : GlyphClass) : Stays previous [] := rfl

theorem stays_cons_iff (previous : GlyphClass) (c : Char) (rest : List Char) :
    Stays previous (c :: rest) ↔
      startsFactor .multiplication [c] (previous.after [c]) previous = false ∧
        Stays (previous.after [c]) rest := by
  rw [Stays, glyphs_cons]
  cases starts : startsFactor .multiplication [c] (previous.after [c]) previous with
  | true =>
      rw [splitAfter_of_starts starts]
      simp
  | false =>
      rw [splitAfter_of_continues starts, written_of_ne (ne_marker_of_continues starts), Stays,
        Prod.ext_iff, Prod.ext_iff]
      simp

theorem stays_append_iff (previous : GlyphClass) (left right : List Char) :
    Stays previous (left ++ right) ↔
      Stays previous left ∧ Stays (previous.afterAll left) right := by
  induction left generalizing previous with
  | nil => simp [stays_nil, afterAll]
  | cons c left ih => rw [List.cons_append, stays_cons_iff, stays_cons_iff, ih, afterAll_cons,
      and_assoc]

/-- Behind a marker a character stays in the token that the marker has opened. -/
theorem stays_neutral_singleton {c : Char} (other : c ≠ Vocabulary.marker) : Stays neutral [c] :=
  (stays_cons_iff neutral c []).mpr ⟨startsFactor_neutral _ other _, stays_nil _⟩

/-- A text that stays together from its start is one token. -/
theorem splitGlyphs_of_stays {text : List Char} (nonempty : text ≠ []) (stays : Stays neutral text) :
    splitGlyphs .multiplication (glyphs text) = [text] := by
  rcases List.exists_cons_of_ne_nil nonempty with ⟨c, rest, rfl⟩
  have whole := ((stays_cons_iff neutral c rest).mp stays).2
  rw [neutral_after] at whole
  rw [splitGlyphs_cons, whole]

/-! ## Texts and their substitutions -/

/-- The characters that may finish a spelling that is substituted. -/
def finishing : List Char :=
  ['i', '*', 'x', 'p']

theorem not_prefix_of_not_mem_finishing {d : Char} {rest : List Char} (other : d ∉ finishing) :
    ∀ c ∈ finishing, ¬ [c] <+: d :: rest := by
  intro c member found
  have same : c = d := (List.cons_prefix_cons.mp found).1
  exact other (same ▸ member)

/-- Nothing is substituted across a seam behind which no spelling can be
finished. -/
theorem substitute_append {left right : List Char} (apart : ∀ c ∈ finishing, ¬ [c] <+: right) :
    substitute (left ++ right) = substitute left ++ substitute right := by
  have constants : ∀ c ∈ finishing, ¬ [c] <+: Text.replaceAll "pi".toList ['π'] right := by
    intro c member found
    have free : 'π' ∉ [c] := fun same => absurd (List.mem_singleton.mp same ▸ member) (by decide)
    exact apart c member (Text.prefix_of_prefix_replaceAll (by decide) free found)
  have powers : ∀ c ∈ finishing, ¬ [c] <+: condense right := by
    intro c member found
    have free : '^' ∉ [c] := fun same => absurd (List.mem_singleton.mp same ▸ member) (by decide)
    exact constants c member (Text.prefix_of_prefix_replaceAll (by decide) free found)
  have within {pattern : List Char} (tail : pattern.tail ⊆ finishing) {left right : List Char}
      (apart : ∀ c ∈ finishing, ¬ [c] <+: right) : Text.Separate pattern left right :=
    Text.Separate.of_tail fun c member => apart c (tail member)
  rw [substitute_eq, substitute_eq, substitute_eq, condense, Text.replaceAll_append (by decide)
    (within (by decide) apart), Text.replaceAll_append (by decide) (within (by decide) constants)]
  exact Text.replaceAll_append (by decide) (within (by decide) powers)

/-- The tokens of a text that goes on, where its substitutions only go on. -/
theorem split_append_of_substitute (policy : SplitPolicy) {left right source : List Char}
    (nonempty : left ≠ []) (substituted : substitute (left ++ right) = substitute left ++ source) :
    split policy (left ++ right) =
      extendTokens (split policy left) (restoreBehind
        (splitAfter policy (neutral.afterAll (substitute left)) (glyphs source))) := by
  have sourceNonempty : substitute left ≠ [] := fun none =>
    nonempty ((substitute_eq_nil_iff left).mp none)
  rw [split, substituted, splitGlyphs_append policy sourceNonempty, map_restore_extendTokens, split]

theorem split_append (policy : SplitPolicy) {left right : List Char} (nonempty : left ≠ [])
    (apart : ∀ c ∈ finishing, ¬ [c] <+: right) :
    split policy (left ++ right) =
      extendTokens (split policy left) (restoreBehind
        (splitAfter policy (neutral.afterAll (substitute left)) (glyphs (substitute right)))) :=
  split_append_of_substitute policy nonempty (substitute_append apart)

/-- What stays in the open token goes into the last token of the text. -/
theorem split_append_of_stays {left right : List Char} (nonempty : left ≠ [])
    (substituted : substitute (left ++ right) = substitute left ++ right)
    (stays : Stays (neutral.afterAll (substitute left)) right) :
    split .multiplication (left ++ right) =
      extendTokens (split .multiplication left) (restore right, []) := by
  rw [split_append_of_substitute .multiplication nonempty substituted, stays]
  rfl

/-! ## The multiplications of a text that goes on -/

section Behind

variable {text part : List Char}

theorem explicit_append_of_joined (nonempty : split .multiplication text ≠ [])
    (joined : split .multiplication (text ++ part) =
      extendTokens (split .multiplication text) (part, [])) :
    explicit (text ++ part) = explicit text ++ part := by
  rw [explicit, joined, intercalate_extendTokens nonempty, List.intercalate_singleton]
  rfl

theorem explicit_append_of_apart (nonempty : split .multiplication text ≠ [])
    (apart : split .multiplication (text ++ part) = split .multiplication text ++ [part]) :
    explicit (text ++ part) = explicit text ++ Vocabulary.marker :: part := by
  rw [explicit, apart, ← extendTokens_opened nonempty, intercalate_extendTokens nonempty,
    List.intercalate_cons_cons, List.intercalate_singleton]
  rfl

end Behind

end Split
end FormulaLine

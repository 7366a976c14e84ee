import FormulaLine.Proofs.Guarding

namespace FormulaLine

/-!
# Points in front of names

A point in front of a name looks up a member, and the guard is there to refuse it.  It
looks for letters and underscores behind the point.  A formula may also hold the constant
`π`, which begins a name as a letter does, and which the guard does not look for.

What is read is the formula with its multiplications written.  There no point stands in
front of a letter, since one would have stood there before.  In front of the constant one
stands just where it was typed so.  The constant spelled with two letters is refused, and
nothing is put between the point and the constant: neither of them belongs to a spelling
that is substituted, and behind a point or a blank only a marker starts a factor.
-/

namespace Guard

/-- The characters of a formula that a name can begin with. -/
def beginsIdentifier (c : Char) : Bool :=
  Glyph.isAsciiLetter c || c == 'π'

/-- A point of the text has a character of the given kind behind it, next to it or with
blanks between. -/
def PointBefore (kind : Char → Bool) (text : List Char) : Prop :=
  ∃ gap c, (∀ b ∈ gap, Text.isBlank b = true) ∧ kind c = true ∧ '.' :: (gap ++ [c]) <:+: text

theorem PointBefore.mono {kind other : Char → Bool} {text : List Char}
    (weaker : ∀ c, kind c = true → other c = true) (point : PointBefore kind text) :
    PointBefore other text := by
  rcases point with ⟨gap, c, blanks, here, found⟩
  exact ⟨gap, c, blanks, weaker c here, found⟩

theorem not_mem_gap {gap : List Char} (blanks : ∀ b ∈ gap, Text.isBlank b = true) {c : Char}
    (other : Text.isBlank c = false) : c ∉ gap := by
  intro member
  rw [blanks c member] at other
  cases other

end Guard

namespace Split

open GlyphClass Guard

/-! ## Characters that belong to no factor -/

/-- The character has no part in a factor, and separates none. -/
structure Mute (c : Char) : Prop where
  marker : c ≠ Vocabulary.marker
  opening : c ≠ '('
  closing : c ≠ ')'
  digit : Glyph.isAsciiDigit c = false
  letter : Glyph.isAsciiLetter c = false
  symbol : Glyph.isSymbol [c] = false

theorem mute_point : Mute '.' :=
  ⟨by decide, by decide, by decide, by decide, by decide, by decide⟩

theorem mute_of_isBlank {c : Char} (blank : Text.isBlank c = true) : Mute c := by
  have free {d : Char} (other : Text.isBlank d = false) : c ≠ d := by
    rintro rfl
    rw [other] at blank
    cases blank
  refine ⟨free (by decide), free (by decide), free (by decide), ?_, ?_, ?_⟩
  · apply Bool.eq_false_iff.mpr
    intro digit
    exact free (isBlank_of_isAsciiDigit digit) rfl
  · apply Bool.eq_false_iff.mpr
    intro letter
    exact free (isBlank_of_isNameStart (by rw [isNameStart, letter, Bool.true_or])) rfl
  · apply Bool.eq_false_iff.mpr
    intro symbol
    rcases (Glyph.isSymbol_singleton_iff c).mp symbol with same | same | same | same | same <;>
      exact free (by decide) same

namespace Mute

variable {c : Char}

theorem startsFactor_eq_false (mute : Mute c) (previous : GlyphClass) :
    startsFactor .multiplication [c] (previous.after [c]) previous = false := by
  have describes := describes_after previous c
  have letter : (previous.after [c]).letter = false := describes.letter.trans mute.letter
  have symbol : (previous.after [c]).plainSymbol = false := by
    rw [plainSymbol, describes.symbol, mute.symbol, Bool.false_and]
  have digit : (previous.after [c]).plainDigit = false := by
    rw [plainDigit, describes.digit, mute.digit, Bool.false_and]
  simp [startsFactor_eq, singleton_eq_markerGlyph_iff, mute.marker, mute.opening, letter, symbol,
    digit]

/-- Behind the character only a marker starts a factor. -/
theorem startsFactor_behind (mute : Mute c) (previous : GlyphClass) {d : Char}
    (other : d ≠ Vocabulary.marker) :
    startsFactor .multiplication [d] ((previous.after [c]).after [d]) (previous.after [c]) = false := by
  have describes := describes_after previous c
  refine startsFactor_eq_false_of_idle other ?_ ?_ ?_
  · rw [describes.closeParen, beq_eq_false_iff_ne]
    exact mute.closing
  · rw [plainDigit, describes.digit, mute.digit, Bool.false_and]
  · rw [plainSymbol, describes.symbol, mute.symbol, Bool.false_and]

end Mute

/-- Nothing is inserted in a text of such characters, nor in front of what follows one
of them. -/
theorem markAfter_of_mute {c d : Char} {gap : List Char} (mute : ∀ b ∈ c :: gap, Mute b)
    (other : d ≠ Vocabulary.marker) (previous : GlyphClass) (rest : List Char) :
    c :: (gap ++ [d]) <+: markAfter previous (c :: (gap ++ d :: rest)) := by
  have here := mute c List.mem_cons_self
  rw [markAfter_of_continues (here.startsFactor_eq_false previous), List.cons_prefix_cons]
  refine ⟨rfl, ?_⟩
  induction gap generalizing c previous with
  | nil =>
      rw [List.nil_append, List.nil_append,
        markAfter_of_continues (here.startsFactor_behind previous other)]
      exact List.prefix_append [d] _
  | cons b gap ih =>
      have behind := mute b (List.mem_cons_of_mem c List.mem_cons_self)
      rw [List.cons_append, List.cons_append,
        markAfter_of_continues (behind.startsFactor_eq_false _), List.cons_prefix_cons]
      exact ⟨rfl, ih (fun e member => mute e (List.mem_cons_of_mem c member)) _ behind⟩

theorem infix_markAfter_of_mute {c d : Char} {gap text : List Char} (mute : ∀ b ∈ c :: gap, Mute b)
    (other : d ≠ Vocabulary.marker) (found : c :: (gap ++ [d]) <:+: text)
    (previous : GlyphClass) : c :: (gap ++ [d]) <:+: markAfter previous text := by
  rcases found with ⟨before, behind, parts⟩
  rw [← parts, List.append_assoc, markAfter_append, List.cons_append, List.append_assoc]
  exact (markAfter_of_mute mute other _ behind).isInfix.trans (List.suffix_append _ _).isInfix

/-! ## Points of the written formula -/

variable {text : List Char}

/-- A constant that was typed behind a point still stands behind it when the multiplications
are written. -/
theorem pointBefore_explicit (point : PointBefore (· == 'π') text) :
    PointBefore (· == 'π') (explicit text) := by
  rcases point with ⟨gap, c, blanks, here, found⟩
  have constant : c = 'π' := beq_iff_eq.mp here
  subst constant
  refine ⟨gap, 'π', blanks, rfl, ?_⟩
  have free {d : Char} (visible : Text.isBlank d = false) (other : d ≠ 'π') :
      d ∉ gap ++ ['π'] := by
    simpa [other] using not_mem_gap blanks visible
  -- No pattern has a point, and none begins with a blank or the constant: what stands here is
  -- kept by each of the three substitutions.
  have substituted : '.' :: (gap ++ ['π']) <:+: substitute text := by
    rw [substitute_eq, condense]
    exact Text.infix_replaceAll_of_infix (by decide) (free (by decide) (by decide))
      (Text.infix_replaceAll_of_infix (by decide) (free (by decide) (by decide))
        (Text.infix_replaceAll_of_infix (by decide) (free (by decide) (by decide)) found))
  have mute : ∀ b ∈ '.' :: gap, Mute b := by
    intro b member
    rcases List.mem_cons.mp member with rfl | inGap
    · exact mute_point
    · exact mute_of_isBlank (blanks b inGap)
  have marked := infix_markAfter_of_mute mute (by decide) substituted neutral
  rcases marked with ⟨before, behind, parts⟩
  have unhidden : Vocabulary.expPlaceholder ∉ '.' :: (gap ++ ['π']) := by
    rw [List.mem_cons, not_or]
    exact ⟨by decide, free (by decide) (by decide)⟩
  rw [explicit_eq, ← parts, restore_append, restore_append, restore_eq_self unhidden]
  exact List.infix_append _ _ _

/-- A constant behind a point of the written formula was typed there, or its two letters
were. -/
theorem pointBefore_of_explicit (free : Vocabulary.expPlaceholder ∉ text)
    (point : PointBefore (· == 'π') (explicit text)) :
    PointBefore (· == 'π') text ∨ PointBefore (· == 'p') text := by
  rcases point with ⟨gap, c, blanks, here, found⟩
  have constant : c = 'π' := beq_iff_eq.mp here
  subst constant
  have apart {d : Char} (visible : Text.isBlank d = false) (other : d ≠ '.') : d ∉ '.' :: gap := by
    rw [List.mem_cons, not_or]
    exact ⟨other, not_mem_gap blanks visible⟩
  have outside {d : Char} (visible : Text.isBlank d = false) (other : d ≠ '.') (last : d ≠ 'π') :
      d ∉ '.' :: (gap ++ ['π']) := by
    rw [← List.cons_append, List.mem_append, not_or, List.mem_singleton]
    exact ⟨apart visible other, last⟩
  -- Only the constant itself can have come from a substitution, and then from two letters.
  have condensed := (marked_explicit free).infix_source
    (outside (by decide) (by decide) (by decide)) found
  have spelled := Text.infix_of_infix_replaceAll (by decide)
    (outside (by decide) (by decide) (by decide)) condensed
  rw [← List.cons_append] at spelled
  rcases Text.infix_of_infix_replaceAll_concat (by decide) (apart (by decide) (by decide)) spelled
    with typed | letters
  · exact Or.inl ⟨gap, 'π', blanks, rfl, typed⟩
  · refine Or.inr ⟨gap, 'p', blanks, rfl, List.IsInfix.trans ?_ letters⟩
    exact ⟨[], ['i'], by simp⟩

end Split

namespace Guard

open Split

/-- A formula that the guard lets through has no letter behind a point when its
multiplications are written.  It has a name behind a point just if the constant was typed
there. -/
theorem pointBefore_explicit_iff {limit : Int} {text : List Char}
    (accepted : refusal? limit text = none) :
    ¬ PointBefore Glyph.isAsciiLetter (explicit text) ∧
      (PointBefore beginsIdentifier (explicit text) ↔ PointBefore (· == 'π') text) := by
  have checks := (Formula.refusal?_eq_none_iff limit text).mp accepted
  rcases checks with ⟨-, allowed, guarded, -⟩
  have free := placeholder_not_mem_of_allowed allowed
  have noLetter : ∀ {source : List Char}, hasMemberAccess source = false →
      ¬ PointBefore Glyph.isAsciiLetter source := by
    intro source unaccessed letter
    have accessed := (hasMemberAccess_iff source).mpr
      (letter.mono fun c isLetter => by rw [isNameStart, isLetter, Bool.true_or])
    rw [unaccessed] at accessed
    cases accessed
  have written := noLetter (hasMemberAccess_explicit free guarded)
  refine ⟨written, ?_, ?_⟩
  · rintro ⟨gap, c, blanks, begins, found⟩
    rcases Bool.or_eq_true_iff.mp begins with letter | constant
    · exact absurd ⟨gap, c, blanks, letter, found⟩ written
    · rcases pointBefore_of_explicit free ⟨gap, c, blanks, constant, found⟩ with typed | letters
      · exact typed
      · refine absurd (letters.mono ?_) (noLetter guarded)
        intro d same
        rw [beq_iff_eq.mp same]
        decide
  · intro typed
    exact (pointBefore_explicit typed).mono fun c constant => by
      rw [beginsIdentifier, constant, Bool.or_true]

theorem pointBefore_explicit_iff_of_blanks :
    let text := "2x(1. )pi**.5+x.  π".toList
    refusal? 20 text = none ∧ ¬ PointBefore Glyph.isAsciiLetter (explicit text) ∧
      (PointBefore beginsIdentifier (explicit text) ↔ PointBefore (· == 'π') text) := by
  intro text
  have accepted : refusal? 20 text = none := by decide
  exact ⟨accepted, pointBefore_explicit_iff accepted⟩

/-- The guard lets a member through that is named by the constant. -/
theorem constant_accepted_behind_point :
    refusal? defaultLimit "x.π".toList = none ∧
      PointBefore beginsIdentifier (explicit "x.π".toList) :=
  ⟨by decide, [], 'π', by simp, by decide, by decide⟩

end Guard
end FormulaLine

import FormulaLine.Split
import Mathlib.Data.Bool.Basic

namespace FormulaLine

/-!
# Classes along a typed text

The class of a character is settled by the character, up to its mask flags, and
a flag is only raised on a character of its own kind.  `GlyphClass.Describes`
says so, and every class that a text brings about has the property.

The masks end where a factor starts: the character that starts one has the class
it would have at the start of a text.  So does a character behind a marker, and
there no further token is opened.
-/

namespace Glyph

@[simp] theorem isDigit_singleton (c : Char) : isDigit [c] = isAsciiDigit c := by
  simp [isDigit]

@[simp] theorem isLetter_singleton (c : Char) : isLetter [c] = isAsciiLetter c := by
  simp [isLetter]

theorem isSymbol_singleton_iff (c : Char) :
    isSymbol [c] = true ↔ c = 'x' ∨ c = 'X' ∨ c = 'e' ∨ c = 'E' ∨ c = 'π' := by
  simp [isSymbol, or_assoc]

theorem isAsciiLetter_of_isAsciiDigit {c : Char} (digit : isAsciiDigit c = true) :
    isAsciiLetter c = false := by
  simp only [isAsciiDigit, isAsciiLetter, Bool.and_eq_true, decide_eq_true_eq,
    Bool.or_eq_false_iff, Bool.and_eq_false_iff, decide_eq_false_iff_not, Char.le_def,
    UInt32.le_iff_toNat_le] at digit ⊢
  simp only [Char.reduceVal, UInt32.reduceToNat] at digit ⊢
  omega

theorem isAsciiDigit_of_isSymbol {c : Char} (symbol : isSymbol [c] = true) :
    isAsciiDigit c = false := by
  rcases (isSymbol_singleton_iff c).mp symbol with rfl | rfl | rfl | rfl | rfl <;> decide

theorem isSymbol_of_isAsciiDigit {c : Char} (digit : isAsciiDigit c = true) :
    isSymbol [c] = false := by
  apply Bool.eq_false_iff.mpr
  intro symbol
  have other := isAsciiDigit_of_isSymbol symbol
  rw [digit] at other
  cases other

end Glyph

namespace GlyphClass

/-- The class of a glyph that belongs to no factor, and the class before the
first glyph. -/
def neutral : GlyphClass := {}

@[simp] theorem neutral_after (g : Glyph) : neutral.after g = first g := by
  simp [after, maskedBy, neutral, first, plainSymbol]

@[simp] theorem first_marker : first Split.markerGlyph = neutral := by
  decide

/-- Whether the glyph draws a digit or a variable symbol behind it into its name. -/
def absorbs (k : GlyphClass) : Bool :=
  k.letter && !k.plainSymbol

/-- On single characters the ordered strengthening of the masks comes to two
independent disjunctions, since no character is both a digit and a symbol. -/
theorem after_eq_inheriting (previous : GlyphClass) (c : Char) :
    previous.after [c] =
      inheriting [c] (previous.maskedDigit || previous.absorbs)
        (previous.maskedSymbol || previous.absorbs) := by
  have apart : Glyph.isSymbol [c] = true → Glyph.isAsciiDigit c = false :=
    Glyph.isAsciiDigit_of_isSymbol
  simp only [after, maskedBy, inheriting, absorbs, Glyph.isDigit_singleton,
    Glyph.isLetter_singleton]
  cases digit : Glyph.isAsciiDigit c <;> cases symbol : Glyph.isSymbol [c] <;>
    cases previous.maskedDigit <;> cases previous.maskedSymbol <;>
    cases previous.letter && !previous.plainSymbol <;> simp_all

/-- A class tells what its character is.  Only the masks depend on what came
before, and they are raised on characters of their own kind only. -/
structure Describes (k : GlyphClass) (c : Char) : Prop where
  closeParen : k.closeParen = (c == ')')
  openParen : k.openParen = (c == '(')
  digit : k.digit = Glyph.isAsciiDigit c
  letter : k.letter = Glyph.isAsciiLetter c
  symbol : k.symbol = Glyph.isSymbol [c]
  maskedDigit : k.maskedDigit = true → k.digit = true
  maskedSymbol : k.maskedSymbol = true → k.symbol = true

theorem describes_inheriting (c : Char) (digitMask symbolMask : Bool) :
    (inheriting [c] digitMask symbolMask).Describes c := by
  constructor <;> simp +contextual [inheriting]

theorem describes_after (previous : GlyphClass) (c : Char) : (previous.after [c]).Describes c :=
  after_eq_inheriting previous c ▸ describes_inheriting c _ _

theorem describes_first (c : Char) : (first [c]).Describes c :=
  describes_inheriting c false false

namespace Describes

variable {k : GlyphClass} {c : Char}

theorem maskedDigit_eq_false (describes : k.Describes c) (other : Glyph.isAsciiDigit c = false) :
    k.maskedDigit = false := by
  apply Bool.eq_false_iff.mpr
  intro masked
  have digit := describes.maskedDigit masked
  rw [describes.digit, other] at digit
  cases digit

theorem maskedSymbol_eq_false (describes : k.Describes c) (other : Glyph.isSymbol [c] = false) :
    k.maskedSymbol = false := by
  apply Bool.eq_false_iff.mpr
  intro masked
  have symbol := describes.maskedSymbol masked
  rw [describes.symbol, other] at symbol
  cases symbol

end Describes

/-- The class of the last character of a text that follows a glyph of class
`previous`. -/
def afterAll (previous : GlyphClass) (text : List Char) : GlyphClass :=
  text.foldl (fun k c => k.after [c]) previous

theorem afterAll_cons (previous : GlyphClass) (c : Char) (rest : List Char) :
    previous.afterAll (c :: rest) = (previous.after [c]).afterAll rest := rfl

theorem afterAll_append (previous : GlyphClass) (left right : List Char) :
    previous.afterAll (left ++ right) = (previous.afterAll left).afterAll right :=
  List.foldl_append

theorem afterAll_concat (previous : GlyphClass) (before : List Char) (c : Char) :
    previous.afterAll (before ++ [c]) = (previous.afterAll before).after [c] :=
  afterAll_append previous before [c]

/-! ## Where the masks end -/

/-- No mask is handed on. -/
def Releases (k : GlyphClass) : Prop :=
  k.maskedDigit = false ∧ k.maskedSymbol = false ∧ k.absorbs = false

theorem Releases.after_eq_first {previous : GlyphClass} (releases : previous.Releases) (c : Char) :
    previous.after [c] = first [c] := by
  rw [after_eq_inheriting, releases.1, releases.2.1, releases.2.2]
  rfl

theorem after_eq_first_of_other (previous : GlyphClass) {c : Char}
    (digit : Glyph.isAsciiDigit c = false) (symbol : Glyph.isSymbol [c] = false) :
    previous.after [c] = first [c] := by
  simp [after_eq_inheriting, first, inheriting, digit, symbol]

/-- Nothing is handed on across a marker. -/
theorem after_marker (previous : GlyphClass) : previous.after [Vocabulary.marker] = neutral :=
  (after_eq_first_of_other previous (by decide) (by decide)).trans first_marker

theorem releases_neutral : neutral.Releases :=
  ⟨rfl, rfl, rfl⟩

theorem Describes.releases_of_other {k : GlyphClass} {c : Char} (describes : k.Describes c)
    (digit : Glyph.isAsciiDigit c = false) (letter : Glyph.isAsciiLetter c = false)
    (symbol : Glyph.isSymbol [c] = false) : k.Releases := by
  refine ⟨describes.maskedDigit_eq_false digit, describes.maskedSymbol_eq_false symbol, ?_⟩
  rw [absorbs, describes.letter, letter, Bool.false_and]

theorem Describes.isAsciiDigit_of_plainDigit {k : GlyphClass} {c : Char}
    (describes : k.Describes c) (plain : k.plainDigit = true) : Glyph.isAsciiDigit c = true := by
  rw [← describes.digit]
  exact (Bool.and_eq_true_iff.mp plain).1

theorem Describes.isSymbol_of_plainSymbol {k : GlyphClass} {c : Char}
    (describes : k.Describes c) (plain : k.plainSymbol = true) : Glyph.isSymbol [c] = true := by
  rw [← describes.symbol]
  exact (Bool.and_eq_true_iff.mp plain).1

/-- No parenthesis belongs to a number or is a symbol. -/
theorem Describes.parens_eq_false_of_plain {k : GlyphClass} {c : Char}
    (describes : k.Describes c) (plain : k.plainDigit = true ∨ k.plainSymbol = true) :
    k.openParen = false ∧ k.closeParen = false := by
  rw [describes.openParen, describes.closeParen, beq_eq_false_iff_ne, beq_eq_false_iff_ne]
  rcases plain with digit | symbol
  · have isDigit := describes.isAsciiDigit_of_plainDigit digit
    constructor <;> rintro rfl <;> exact absurd isDigit (by decide)
  · have isSymbol := describes.isSymbol_of_plainSymbol symbol
    constructor <;> rintro rfl <;> exact absurd isSymbol (by decide)

theorem Describes.releases_of_plainDigit {k : GlyphClass} {c : Char} (describes : k.Describes c)
    (plain : k.plainDigit = true) : k.Releases := by
  have digit := describes.isAsciiDigit_of_plainDigit plain
  have unmasked : k.maskedDigit = false := by
    simpa using (Bool.and_eq_true_iff.mp plain).2
  have symbol : Glyph.isSymbol [c] = false := Glyph.isSymbol_of_isAsciiDigit digit
  refine ⟨unmasked, describes.maskedSymbol_eq_false symbol, ?_⟩
  rw [absorbs, describes.letter, Glyph.isAsciiLetter_of_isAsciiDigit digit, Bool.false_and]

theorem Describes.releases_of_plainSymbol {k : GlyphClass} {c : Char} (describes : k.Describes c)
    (plain : k.plainSymbol = true) : k.Releases := by
  have symbol := describes.isSymbol_of_plainSymbol plain
  have unmasked : k.maskedSymbol = false := by
    simpa using (Bool.and_eq_true_iff.mp plain).2
  refine ⟨describes.maskedDigit_eq_false (Glyph.isAsciiDigit_of_isSymbol symbol), unmasked, ?_⟩
  rw [absorbs, plain, Bool.not_true, Bool.and_false]

/-- A digit that follows a letter within a name is no factor. -/
theorem plainDigit_after_of_absorbs {previous : GlyphClass} (absorbs : previous.absorbs = true)
    (c : Char) : (previous.after [c]).plainDigit = false := by
  simp [after_eq_inheriting, inheriting, plainDigit, absorbs]

end GlyphClass

namespace Split

open GlyphClass

/-! ## Where a factor starts -/

theorem singleton_eq_markerGlyph_iff (c : Char) : [c] = markerGlyph ↔ c = Vocabulary.marker := by
  simp [markerGlyph]

theorem written_marker : written [Vocabulary.marker] = [] := rfl

theorem written_of_ne {c : Char} (other : c ≠ Vocabulary.marker) : written [c] = [c] := by
  rw [written, if_neg (fun same => other ((singleton_eq_markerGlyph_iff c).mp same))]

theorem startsFactor_marker (policy : SplitPolicy) (current previous : GlyphClass) :
    startsFactor policy [Vocabulary.marker] current previous = true := by
  simp [startsFactor_eq, markerGlyph]

theorem ne_marker_of_continues {policy : SplitPolicy} {c : Char} {current previous : GlyphClass}
    (continues : startsFactor policy [c] current previous = false) : c ≠ Vocabulary.marker := by
  rintro rfl
  rw [startsFactor_marker] at continues
  cases continues

/-- The finer policy adds the places behind opening parentheses. -/
theorem startsFactor_term (g : Glyph) (current previous : GlyphClass) :
    startsFactor .term g current previous =
      (previous.openParen || startsFactor .multiplication g current previous) := by
  cases opened : previous.openParen <;> simp [startsFactor_eq, opened]

theorem startsFactor_of_multiplication {g : Glyph} {current previous : GlyphClass}
    (policy : SplitPolicy) (starts : startsFactor .multiplication g current previous = true) :
    startsFactor policy g current previous = true := by
  cases policy with
  | multiplication => exact starts
  | term => rw [startsFactor_term, starts, Bool.or_true]

/-- Behind a marker nothing starts but another marker. -/
theorem startsFactor_neutral (policy : SplitPolicy) {c : Char} (other : c ≠ Vocabulary.marker)
    (current : GlyphClass) : startsFactor policy [c] current neutral = false := by
  simp [startsFactor_eq, singleton_eq_markerGlyph_iff, other, neutral, plainSymbol, plainDigit]

/-- Behind a character that closes nothing and is no value of its own, nothing
starts but a marker.  The one rule that is left asks for a digit behind a letter,
and that digit is masked. -/
theorem startsFactor_eq_false_of_idle {previous : GlyphClass} {c : Char}
    (other : c ≠ Vocabulary.marker) (closed : previous.closeParen = false)
    (digit : previous.plainDigit = false) (symbol : previous.plainSymbol = false) :
    startsFactor .multiplication [c] (previous.after [c]) previous = false := by
  have masked : previous.letter = true → (previous.after [c]).plainDigit = false := by
    intro letter
    have absorbs : previous.absorbs = true := by
      rw [GlyphClass.absorbs, letter, symbol]
      rfl
    exact plainDigit_after_of_absorbs absorbs c
  cases letter : previous.letter <;>
    simp_all [startsFactor_eq, singleton_eq_markerGlyph_iff]

/-- A character that starts a factor has the class that it has at the start of
a text. -/
theorem after_eq_first_of_startsFactor {previous : GlyphClass} {p c : Char}
    (describes : previous.Describes p)
    (starts : startsFactor .multiplication [c] (previous.after [c]) previous = true) :
    previous.after [c] = first [c] := by
  by_cases marker : c = Vocabulary.marker
  · subst marker
    exact after_eq_first_of_other previous (by decide) (by decide)
  by_cases opening : c = '('
  · subst opening
    exact after_eq_first_of_other previous (by decide) (by decide)
  cases closed : previous.closeParen with
  | true =>
      have closing : p = ')' := by simpa [describes.closeParen] using closed
      subst closing
      exact (describes.releases_of_other (by decide) (by decide) (by decide)).after_eq_first c
  | false =>
      cases digit : previous.plainDigit with
      | true => exact (describes.releases_of_plainDigit digit).after_eq_first c
      | false =>
          cases symbol : previous.plainSymbol with
          | true => exact (describes.releases_of_plainSymbol symbol).after_eq_first c
          | false =>
              rw [startsFactor_eq_false_of_idle marker closed digit symbol] at starts
              cases starts

end Split
end FormulaLine

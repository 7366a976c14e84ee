import FormulaLine.Glyph
import FormulaLine.Text.Replace
import FormulaLine.Vocabulary

namespace FormulaLine

/-!
Splitting a formula into implicitly multiplied factors.

A new token opens where a glyph starts a factor.  The decision looks at one
glyph and the classes of that glyph and the one before; nothing is revised
later.  The multiplication marker opens a token and is left out of it, so the
tokens joined by markers spell the formula with every multiplication written.
-/

/-- How finely a formula is split. -/
inductive SplitPolicy where
  /-- Only where a multiplication is implied or written. -/
  | multiplication
  /-- Also after every opening parenthesis. -/
  | term
  deriving DecidableEq

namespace SplitPolicy

def name : SplitPolicy → List Char
  | .multiplication => "multiplication".toList
  | .term => "term".toList

def ofName? (name : List Char) : Option SplitPolicy :=
  [.multiplication, .term].find? fun policy => policy.name == name

end SplitPolicy

namespace Split

/-- The marker as a glyph. -/
def markerGlyph : Glyph := [Vocabulary.marker]

/-- Whether a glyph starts a new factor, by its class and the class before it.
The rules are ordered, and the first that applies decides, also when it says no. -/
def startsFactor (policy : SplitPolicy) (g : Glyph) (current previous : GlyphClass) : Bool :=
  if g = markerGlyph ∨ (policy = .term ∧ previous.openParen) then
    true
  else if previous.closeParen then
    g = ['('] || (current.letter && !current.plainSymbol) || current.plainSymbol ||
      current.plainDigit
  else if g = ['('] then
    (previous.plainSymbol || previous.plainDigit) && !previous.letter
  else if previous.plainDigit then
    current.plainSymbol || current.letter
  else if current.plainSymbol || current.letter then
    previous.plainDigit || (previous.plainSymbol && current.plainSymbol) || previous.plainSymbol
  else if (current.plainDigit || current.letter || current.plainSymbol) &&
      (previous.plainDigit || previous.letter) then
    true
  else
    current.plainDigit && previous.plainSymbol

/-- What is left of the rules.  The second to last cannot apply to a letter or a
symbol, nor behind a digit, and most of what the rules before it ask for is settled
once they are reached. -/
theorem startsFactor_eq (policy : SplitPolicy) (g : Glyph) (current previous : GlyphClass) :
    startsFactor policy g current previous =
      if g = markerGlyph ∨ (policy = .term ∧ previous.openParen) then true
      else if previous.closeParen then
        g = ['('] || current.letter || current.plainSymbol || current.plainDigit
      else if g = ['('] then (previous.plainSymbol || previous.plainDigit) && !previous.letter
      else if previous.plainDigit then current.plainSymbol || current.letter
      else if current.plainSymbol || current.letter then previous.plainSymbol
      else current.plainDigit && (previous.letter || previous.plainSymbol) := by
  have closing : ((decide (g = ['(']) || (current.letter && !current.plainSymbol) ||
      current.plainSymbol || current.plainDigit) : Bool) =
      (decide (g = ['(']) || current.letter || current.plainSymbol || current.plainDigit) := by
    cases current.letter <;> cases current.plainSymbol <;> simp
  rw [startsFactor, closing]
  cases previous.plainDigit <;> cases current.plainSymbol <;> cases current.letter <;>
    cases previous.letter <;> cases previous.plainSymbol <;> cases current.plainDigit <;> simp

/-- What a glyph contributes to its token. -/
def written (g : Glyph) : List Char :=
  if g = markerGlyph then [] else g

/-- Splits what follows a glyph of class `previous`: the rest of the token that
is open, and the tokens after it. -/
def splitAfter (policy : SplitPolicy) (previous : GlyphClass) :
    List Glyph → List Char × List (List Char)
  | [] => ([], [])
  | g :: rest =>
    let current := previous.after g
    let (body, tokens) := splitAfter policy current rest
    if startsFactor policy g current previous then
      ([], (written g ++ body) :: tokens)
    else
      (written g ++ body, tokens)

/-- Splits a sequence of glyphs.  The first glyph always opens a token and is
kept even if it is a marker. -/
def splitGlyphs (policy : SplitPolicy) : List Glyph → List (List Char)
  | [] => []
  | g :: rest =>
    let (body, tokens) := splitAfter policy (GlyphClass.first g) rest
    (g ++ body) :: tokens

/-- The glyphs of a text, one for each character. -/
def glyphs (text : List Char) : List Glyph :=
  text.map fun c => [c]

/-- Applies the substitutions in their order. -/
def substitute (text : List Char) : List Char :=
  Vocabulary.substitutions.foldl
    (fun text substitution => Text.replaceAll substitution.1 substitution.2 text) text

/-- Writes `exp` again for each placeholder. -/
def restore (token : List Char) : List Char :=
  Text.replaceAll [Vocabulary.expPlaceholder] "exp".toList token

/-- The tokens of a formula. -/
def split (policy : SplitPolicy) (text : List Char) : List (List Char) :=
  (splitGlyphs policy (glyphs (substitute text))).map restore

/-- The formula with every implied multiplication written. -/
def explicit (text : List Char) : List Char :=
  markerGlyph.intercalate (split .multiplication text)

/-- The token that is being typed, under the finer policy. -/
def lastTerm (text : List Char) : List Char :=
  (split .term text).getLastD []

end Split
end FormulaLine

namespace FormulaLine

/-!
Classes of glyphs.  A glyph is the unit a formula is split by: one character in
a typed formula, though the classification is defined for any text.

Two mask flags are carried from one glyph to the next, so that the digits and
variable symbols inside a longer name (the `2` in `log2`, the `e` in `ceil`) are
not read as factors of their own.  Only the glyph directly before is consulted.
-/

/-- The unit by which a formula is split. -/
abbrev Glyph := List Char

namespace Glyph

def isAsciiDigit (c : Char) : Bool :=
  '0' ≤ c && c ≤ '9'

def isAsciiLetter (c : Char) : Bool :=
  ('a' ≤ c && c ≤ 'z') || ('A' ≤ c && c ≤ 'Z')

/-- Whether the glyph is a symbol that stands for a variable or a constant. -/
def isSymbol : Glyph → Bool
  | [c] => c == 'x' || c == 'X' || c == 'e' || c == 'E' || c == 'π'
  | _ => false

/-- Whether the glyph is nonempty and consists of ASCII digits. -/
def isDigit (g : Glyph) : Bool :=
  !g.isEmpty && g.all isAsciiDigit

/-- Whether the glyph is nonempty and consists of ASCII letters. -/
def isLetter (g : Glyph) : Bool :=
  !g.isEmpty && g.all isAsciiLetter

end Glyph

/-- What is known of a glyph after the glyphs before it. -/
structure GlyphClass where
  closeParen : Bool := false
  openParen : Bool := false
  digit : Bool := false
  letter : Bool := false
  symbol : Bool := false
  /-- The glyph is a digit inside a name. -/
  maskedDigit : Bool := false
  /-- The glyph is a variable symbol inside a name. -/
  maskedSymbol : Bool := false
  deriving DecidableEq

namespace GlyphClass

/-- A variable symbol that is a factor of its own. -/
def plainSymbol (c : GlyphClass) : Bool :=
  c.symbol && !c.maskedSymbol

/-- A digit that belongs to a number. -/
def plainDigit (c : GlyphClass) : Bool :=
  c.digit && !c.maskedDigit

/-- The class of a glyph that inherits mask flags.  A flag survives only on a
glyph of its own kind. -/
def inheriting (g : Glyph) (digitMask symbolMask : Bool) : GlyphClass where
  closeParen := g == [')']
  openParen := g == ['(']
  digit := g.isDigit
  letter := g.isLetter
  symbol := g.isSymbol
  maskedDigit := g.isDigit && digitMask
  maskedSymbol := g.isSymbol && symbolMask

/-- The class of the first glyph of a formula. -/
def first (g : Glyph) : GlyphClass :=
  inheriting g false false

/-- Strengthens the mask of a class by the class before it.  A letter that is
not itself a factor draws the following digit or variable symbol into its
name. -/
def maskedBy (current previous : GlyphClass) : GlyphClass :=
  if previous.maskedDigit && current.digit then
    { current with maskedDigit := true }
  else if previous.maskedSymbol && current.symbol then
    { current with maskedSymbol := true }
  else if previous.letter && !previous.plainSymbol then
    { current with maskedDigit := current.digit, maskedSymbol := current.symbol }
  else
    current

/-- The class of a glyph that follows a glyph of class `previous`. -/
def after (previous : GlyphClass) (g : Glyph) : GlyphClass :=
  (inheriting g previous.maskedDigit previous.maskedSymbol).maskedBy previous

/-- The classes of the glyphs that follow a glyph of class `previous`. -/
def runAfter (previous : GlyphClass) : List Glyph → List GlyphClass
  | [] => []
  | g :: rest =>
    let current := previous.after g
    current :: current.runAfter rest

/-- The classes of all glyphs of a formula. -/
def run : List Glyph → List GlyphClass
  | [] => []
  | g :: rest => first g :: (first g).runAfter rest

end GlyphClass
end FormulaLine

import FormulaLine.Glyph
import FormulaLine.Vocabulary

namespace FormulaLine
namespace Grammar

/-!
# Formulas with implied multiplications

An expression is built from signed products by operators, and a product is a
row of factors.  Which factors may stand side by side depends on their kinds
alone, so products carry the kind of their first factor, and a row that is not
admitted cannot be built.

A style says how constants and powers are spelled and what stands between the
factors of a product.  All styles share one spelling of the rest, so two
spellings of an expression differ in these three respects and in nothing else.
-/

/-- What a factor is, as far as its neighbours are concerned. -/
inductive Kind where
  | number
  /-- The symbols `x` and `e`. -/
  | letter
  /-- The constant `π`. -/
  | constant
  | group
  | call
  deriving DecidableEq

/-- Whether a factor of the second kind may follow one of the first.  Two
numbers would be read as one, and a letter before a group as a call. -/
def Kind.admits : Kind → Kind → Bool
  | .number, .number => false
  | .letter, .group => false
  | _, _ => true

/-- A row of digits. -/
structure Digits where
  text : List Char
  nonempty : text ≠ []
  isAsciiDigit : ∀ c ∈ text, Glyph.isAsciiDigit c = true

/-- A number, with the digits behind its point if it has one. -/
structure Numeral where
  whole : Digits
  fraction : Option Digits

inductive Letter where
  | x | e

/-- The spellings of the constant: as the symbol `π` or as the word `pi`. -/
inductive Constant where
  | symbol | word

/-- The spellings of a power: with `^` or with `**`. -/
inductive Power where
  | caret | stars

inductive Sign where
  | plus | minus

inductive Operator where
  | plus | minus | divide | times
  | power (spelling : Power)

mutual
inductive Factor : Kind → Type where
  | number (n : Numeral) : Factor .number
  | letter (l : Letter) : Factor .letter
  | constant (c : Constant) : Factor .constant
  | group (inner : Expression) : Factor .group
  /-- A call of any function but `exp`. -/
  | call (f : Builtin) (other : f ≠ .exp) (argument : Expression) : Factor .call

/-- Factors that are multiplied by standing side by side. -/
inductive Product : Kind → Type where
  | single {k : Kind} (f : Factor k) : Product k
  | beside {k l : Kind} (f : Factor k) (rest : Product l) (fits : k.admits l = true) : Product k

inductive Expression : Type where
  | product {k : Kind} (sign : Option Sign) (p : Product k) : Expression
  | combined {k : Kind} (sign : Option Sign) (p : Product k) (operator : Operator)
      (rest : Expression) : Expression
end

/-- How the spellings of an expression differ. -/
structure Style where
  constant : Constant → List Char
  power : Power → List Char
  /-- What stands between the factors of a product. -/
  joint : List Char

namespace Style

/-- As a formula is typed. -/
def typed : Style where
  constant
    | .symbol => ['π']
    | .word => "pi".toList
  power
    | .caret => ['^']
    | .stars => "**".toList
  joint := []

/-- With one spelling for constants and powers. -/
def condensed : Style where
  constant _ := ['π']
  power _ := ['^']
  joint := []

/-- With one spelling for constants and powers, and every multiplication
written. -/
def written : Style where
  constant _ := ['π']
  power _ := ['^']
  joint := ['*']

end Style

def Letter.spell : Letter → List Char
  | .x => ['x']
  | .e => ['e']

def Numeral.spell (n : Numeral) : List Char :=
  match n.fraction with
  | none => n.whole.text
  | some fraction => n.whole.text ++ '.' :: fraction.text

def Sign.spell : Option Sign → List Char
  | none => []
  | some .plus => ['+']
  | some .minus => ['-']

def Operator.spell (style : Style) : Operator → List Char
  | .plus => ['+']
  | .minus => ['-']
  | .divide => ['/']
  | .times => ['*']
  | .power spelling => style.power spelling

mutual
def Factor.spell (style : Style) {k : Kind} : Factor k → List Char
  | .number n => n.spell
  | .letter l => l.spell
  | .constant c => style.constant c
  | .group inner => '(' :: (inner.spell style ++ [')'])
  | .call f _ argument => f.spelling ++ '(' :: (argument.spell style ++ [')'])

def Product.spell (style : Style) {k : Kind} : Product k → List Char
  | .single f => f.spell style
  | .beside f rest _ => f.spell style ++ (style.joint ++ rest.spell style)

def Expression.spell (style : Style) : Expression → List Char
  | .product sign p => Sign.spell sign ++ p.spell style
  | .combined sign p operator rest =>
    Sign.spell sign ++ (p.spell style ++ (operator.spell style ++ rest.spell style))
end

end Grammar
end FormulaLine

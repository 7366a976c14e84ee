namespace FormulaLine

/-!
The vocabulary of the input line: the functions that can be called, the symbols
that stand for values, and the spellings that are rewritten before a formula is
split.
-/

/-- The functions that a formula may call. -/
inductive Builtin where
  | abs | signum
  | sin | cos | tan
  | asin | acos | atan
  | sinh | cosh | tanh
  | floor | round | ceil | trunc | fract
  | exp | sqrt | cbrt | ln | log2 | log10
  deriving DecidableEq

namespace Builtin

/-- The functions in the order in which completions list them. -/
def all : List Builtin :=
  [.abs, .signum, .sin, .cos, .tan, .asin, .acos, .atan, .sinh, .cosh, .tanh,
   .floor, .round, .ceil, .trunc, .fract, .exp, .sqrt, .cbrt, .ln, .log2, .log10]

theorem mem_all (f : Builtin) : f ∈ all := by
  cases f <;> decide

/-- How a formula writes the function. -/
def spelling : Builtin → List Char
  | .abs => "abs".toList
  | .signum => "signum".toList
  | .sin => "sin".toList
  | .cos => "cos".toList
  | .tan => "tan".toList
  | .asin => "asin".toList
  | .acos => "acos".toList
  | .atan => "atan".toList
  | .sinh => "sinh".toList
  | .cosh => "cosh".toList
  | .tanh => "tanh".toList
  | .floor => "floor".toList
  | .round => "round".toList
  | .ceil => "ceil".toList
  | .trunc => "trunc".toList
  | .fract => "fract".toList
  | .exp => "exp".toList
  | .sqrt => "sqrt".toList
  | .cbrt => "cbrt".toList
  | .ln => "ln".toList
  | .log2 => "log2".toList
  | .log10 => "log10".toList

/-- The function with the given spelling. -/
def ofSpelling? (name : List Char) : Option Builtin :=
  all.find? fun f => f.spelling == name

theorem ofSpelling?_spelling (f : Builtin) : ofSpelling? f.spelling = some f := by
  cases f <;> decide

end Builtin

namespace Vocabulary

/-- The supported function names, in the order in which completions list them. -/
def functions : List (List Char) :=
  Builtin.all.map Builtin.spelling

/-- The symbols for the argument of a formula and for constants. -/
def variableNames : List (List Char) :=
  [['x'], ['e'], ['π']]

/-- The names that a formula may use for constants and functions. -/
def names : List (List Char) :=
  [['π'], ['e'], ['E']] ++ functions

/-- The symbol that separates factors and is removed when a formula is split. -/
def marker : Char := '*'

/-- A single unassigned character that stands for `exp` while a formula is
split, so that its letters are not read as the variables `e` and `x`. -/
def expPlaceholder : Char := Char.ofNat 0x1FC93

/-- The rewritten spellings with what replaces them, in the order in which they
are applied. -/
def substitutions : List (List Char × List Char) :=
  [("pi".toList, ['π']), ("**".toList, ['^']), ("exp".toList, [expPlaceholder])]

/-- What an empty line suggests. -/
def emptySuggestion : List Char := "x^2".toList

/-- What a line with an open parenthesis suggests. -/
def closingSuggestion : List Char := [')']

end Vocabulary
end FormulaLine

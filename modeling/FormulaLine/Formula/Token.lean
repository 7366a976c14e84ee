import FormulaLine.Glyph
import FormulaLine.Text.Blank
import FormulaLine.Vocabulary

namespace FormulaLine

/-!
Tokens of a formula in which every multiplication is written.

Reading goes in two steps.  The first cuts the text into lexemes: numbers, words
and single operator characters.  Spaces separate lexemes and are dropped; line breaks
are lexemes, and all other blank characters are refused.  The second step gives words
their meaning, which for a word outside the vocabulary depends on whether an opening
parenthesis comes next, and joins operator characters that follow each other, with or
without spaces between them: `* *` is a power like `**` and `^`.  Words behind a point
are left as they stand up to the next lexeme that is no word.

A line break outside of parentheses ends a formula too early, unless the formula
starts with the word `lambda`: what follows that word becomes the argument of a call
and stands in parentheses in the end.  The lines must then be indented as lines are
in blocks.
-/

/-- What the characters of a formula are cut into. -/
inductive Lexeme where
  | integer (digits : List Char)
  | decimal (text : List Char)
  | word (text : List Char)
  | mark (c : Char)
  /-- A line break inside parentheses, or before a blank line. -/
  | lineBreak
  /-- A line break outside of parentheses, with the indentation of the next line. -/
  | newLine (indentation : Nat)
  deriving DecidableEq

namespace Lexeme

/-- Whether the character is a letter of a name. -/
def isNameStart (c : Char) : Bool :=
  Glyph.isAsciiLetter c || c == 'π'

def isNamePart (c : Char) : Bool :=
  isNameStart c || Glyph.isAsciiDigit c

/-- The operator characters. -/
def marks : List Char := ['+', '-', '*', '/', '^', '(', ')', '.']

/-- The digits at the start of a text, and the rest. -/
def spanDigits (text : List Char) : List Char × List Char :=
  text.span Glyph.isAsciiDigit

/-- Reads a number at the start of a text.  Digits with a point, of which one
digit at least, are a decimal number.  An integer that starts with zero is made of
zeros only, and other digits after them start a number of their own. -/
def number? (text : List Char) : Option (Lexeme × List Char) :=
  let (digits, rest) := spanDigits text
  match digits, rest with
  | [], '.' :: rest =>
    match spanDigits rest with
    | ([], _) => none
    | (fraction, rest) => some (.decimal ('.' :: fraction), rest)
  | [], _ => none
  | digits, '.' :: rest =>
    let (fraction, rest) := spanDigits rest
    some (.decimal (digits ++ '.' :: fraction), rest)
  | '0' :: digits, rest =>
    let (zeros, others) := digits.span (· == '0')
    some (.integer ('0' :: zeros), others ++ rest)
  | digits, rest => some (.integer digits, rest)

/-- The depth of parentheses after an operator character. -/
def depthAfter (depth : Nat) (c : Char) : Nat :=
  if c = '(' then depth + 1 else if c = ')' then depth - 1 else depth

/-- Whether the character separates lexemes and is dropped. -/
def isGap (c : Char) : Bool :=
  c == ' ' || c == '\t' || c == '\x0c'

/-- The column that a line starts in: a tabulator goes on to the next multiple of
eight, and a form feed starts anew. -/
def indentation (gap : List Char) : Nat :=
  gap.foldl (fun column c =>
    if c = '\t' then (column / 8 + 1) * 8 else if c = '\x0c' then 0 else column + 1) 0

/-- The line break before the given text. -/
def breakBefore (depth : Nat) (rest : List Char) : Lexeme :=
  let (gap, line) := rest.span isGap
  if depth = 0 && line.head? != some '\n' then .newLine (indentation gap) else .lineBreak

/-- Cuts a text into lexemes; `fuel` bounds their number. -/
def scan : Nat → Nat → List Char → Option (List Lexeme)
  | _, _, [] => some []
  | 0, _, _ => none
  | fuel + 1, depth, c :: rest =>
    match number? (c :: rest) with
    | some (number, rest) => (scan fuel depth rest).map (number :: ·)
    | none =>
      if isGap c then scan fuel depth rest
      else if c = '\n' then (scan fuel depth rest).map (breakBefore depth rest :: ·)
      else if c = '\r' then
        if depth = 0 then none else (scan fuel depth rest).map (lineBreak :: ·)
      else if isNameStart c then
        let (name, rest) := (c :: rest).span isNamePart
        (scan fuel depth rest).map (word name :: ·)
      else if marks.contains c then (scan fuel (depthAfter depth c) rest).map (mark c :: ·)
      else none

/-- The lexemes of a formula without the blanks around it. -/
def ofText? (text : List Char) : Option (List Lexeme) :=
  let text := Text.trim text
  scan (text.length + 1) 0 text

end Lexeme

/-- A reserved word. -/
inductive Keyword where
  | true | false | nothing | and | or | not | isWord | inWord | ifWord | elseWord
  /-- A reserved word that no formula has a use for. -/
  | other
  deriving DecidableEq

inductive Token where
  | integer (digits : List Char)
  | decimal (text : List Char)
  /-- A word of the vocabulary. -/
  | name (text : List Char)
  /-- A word outside the vocabulary. -/
  | variable (text : List Char)
  /-- A word outside the vocabulary before an opening parenthesis. -/
  | function (text : List Char)
  /-- A word outside the vocabulary that is left as it stands. -/
  | unresolved (text : List Char)
  | keyword (word : Keyword)
  | plus | minus | times | divide | floorDivide | power
  | open | close | dot | ellipsis
  deriving DecidableEq

namespace Token

def keywords : List (List Char × Keyword) :=
  [("True".toList, .true), ("False".toList, .false), ("None".toList, .nothing),
   ("and".toList, .and), ("or".toList, .or), ("not".toList, .not),
   ("is".toList, .isWord), ("in".toList, .inWord), ("if".toList, .ifWord),
   ("else".toList, .elseWord)] ++
  (["as", "assert", "async", "await", "break", "class", "continue", "def", "del", "elif",
    "except", "finally", "for", "from", "global", "import", "lambda", "nonlocal", "pass",
    "raise", "return", "try", "while", "with", "yield"].map fun word =>
      (word.toList, Keyword.other))

def keyword? (word : List Char) : Option Keyword :=
  (keywords.find? fun entry => entry.1 == word).map Prod.snd

/-- The constants that a formula may name. -/
def constants : List (List Char) := [['π'], ['e'], ['E']]

/-- The names that make values out of values. -/
def makers : List (List Char) :=
  ["Integer".toList, "Float".toList, "Rational".toList, "Symbol".toList, "Function".toList]

/-- Whether a word has a meaning of its own. -/
def isKnown (word : List Char) : Bool :=
  (Builtin.ofSpelling? word).isSome || constants.contains word || makers.contains word

/-- The token of a word before the given lexemes; `bare` tells that words are left as
they stand. -/
def ofWord (bare : Bool) (word : List Char) (following : List Lexeme) : Token :=
  match keyword? word with
  | some reserved => .keyword reserved
  | none =>
    if isKnown word then .name word
    else if bare then .unresolved word
    else if following.head? = some (.mark '(') then .function word
    else .variable word

/-- Writes each power sign as two stars. -/
def expandPowers : List Lexeme → List Lexeme
  | [] => []
  | .mark '^' :: rest => .mark '*' :: .mark '*' :: expandPowers rest
  | lexeme :: rest => lexeme :: expandPowers rest

/-- Joins operator characters and gives words their meaning.  Words are left as they
stand, with `bare`, from a point to the next lexeme that is no word. -/
def join : Bool → List Lexeme → Option (List Token)
  | _, [] => some []
  | _, .lineBreak :: rest => join false rest
  | _, .newLine _ :: _ => none
  | _, .integer digits :: rest => (join false rest).map (.integer digits :: ·)
  | _, .decimal text :: rest => (join false rest).map (.decimal text :: ·)
  | bare, .word text :: rest => (join bare rest).map (ofWord bare text rest :: ·)
  | _, .mark '*' :: .mark '*' :: rest => (join false rest).map (.power :: ·)
  | _, .mark '*' :: rest => (join false rest).map (.times :: ·)
  | _, .mark '/' :: .mark '/' :: rest => (join false rest).map (.floorDivide :: ·)
  | _, .mark '/' :: rest => (join false rest).map (.divide :: ·)
  | _, .mark '.' :: .mark '.' :: .mark '.' :: rest => (join false rest).map (.ellipsis :: ·)
  | _, .mark '.' :: rest => (join true rest).map (.dot :: ·)
  | _, .mark '+' :: rest => (join false rest).map (.plus :: ·)
  | _, .mark '-' :: rest => (join false rest).map (.minus :: ·)
  | _, .mark '(' :: rest => (join false rest).map (.open :: ·)
  | _, .mark ')' :: rest => (join false rest).map (.close :: ·)
  | _, .mark _ :: _ => none

/-- The word that turns the rest of a formula into the argument of a call. -/
def lambdaWord : List Char := "lambda".toList

/-- The function that such a call applies. -/
def lambdaFunction : List Char := "Lambda".toList

/-- Deepest nesting of parentheses. -/
def maxDepth : Nat := 200

/-- Whether parentheses are nested at most `maxDepth` deep, where a number and a
word outside the vocabulary count as one more. -/
def nestsWithin (depth : Nat) : List Token → Bool
  | [] => true
  | .open :: rest => depth < maxDepth && nestsWithin (depth + 1) rest
  | .close :: rest => nestsWithin (depth - 1) rest
  | .integer _ :: rest => depth < maxDepth && nestsWithin depth rest
  | .decimal _ :: rest => depth < maxDepth && nestsWithin depth rest
  | .variable _ :: rest => depth < maxDepth && nestsWithin depth rest
  | .function _ :: rest => depth < maxDepth && nestsWithin depth rest
  | _ :: rest => nestsWithin depth rest

/-- Whether each line that is indented less than the one before is indented like some
line that is still open; `outer` are the columns of the open lines, the inner first. -/
def dedents : List Nat → List Lexeme → Bool
  | _, [] => true
  | outer, .newLine column :: rest =>
    let remaining := outer.dropWhile (column < ·)
    if remaining.head? = some column then dedents remaining rest
    else remaining.length = outer.length && dedents (column :: outer) rest
  | outer, _ :: rest => dedents outer rest

/-- Lines inside parentheses, where indentation means nothing. -/
def enclose (lexemes : List Lexeme) : List Lexeme :=
  lexemes.map fun lexeme =>
    match lexeme with
    | .newLine _ => .lineBreak
    | lexeme => lexeme

/-- The tokens of lexemes. -/
def ofLexemes? (lexemes : List Lexeme) : Option (List Token) :=
  match lexemes with
  | .word word :: next :: rest =>
    if word = lambdaWord then
      if (next :: rest).contains (.mark '*') || !dedents [0] (next :: rest) then none
      else do
        let argument ← join false (expandPowers (enclose (next :: rest)))
        return .function lambdaFunction :: .open :: .open :: (argument ++ [.close, .close])
    else join false (expandPowers lexemes)
  | lexemes => join false (expandPowers lexemes)

/-- The tokens of a formula. -/
def ofText? (text : List Char) : Option (List Token) := do
  let tokens ← ofLexemes? (← Lexeme.ofText? text)
  if nestsWithin 0 tokens then some tokens else none

end Token
end FormulaLine

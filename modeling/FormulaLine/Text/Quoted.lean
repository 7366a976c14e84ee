import FormulaLine.Text.Printable

namespace FormulaLine
namespace Text

/-!
Quoted texts.  A text is quoted with apostrophes, unless it holds an apostrophe
and no double quote; then double quotes are used.  The quote in use and the
backslash are escaped by a backslash, unprintable characters by their code
point in lower-case hexadecimal, and everything else stands for itself.
-/

/-- The digit of a value below sixteen. -/
def hexDigit (n : Nat) : Char :=
  if n < 10 then Char.ofNat ('0'.toNat + n) else Char.ofNat ('a'.toNat + (n - 10))

/-- The last `width` hexadecimal digits of a number, most significant first. -/
def hexDigits : Nat → Nat → List Char
  | 0, _ => []
  | width + 1, n => hexDigits width (n / 16) ++ [hexDigit (n % 16)]

/-- How one character is written inside the given quote. -/
def escapeChar (quote c : Char) : List Char :=
  if c = quote ∨ c = '\\' then ['\\', c]
  else if c = '\n' then ['\\', 'n']
  else if c = '\r' then ['\\', 'r']
  else if c = '\t' then ['\\', 't']
  else if isPrintable c then [c]
  else if c.toNat < 0x100 then '\\' :: 'x' :: hexDigits 2 c.toNat
  else if c.toNat < 0x10000 then '\\' :: 'u' :: hexDigits 4 c.toNat
  else '\\' :: 'U' :: hexDigits 8 c.toNat

/-- The quote that encloses the text. -/
def quoteFor (cs : List Char) : Char :=
  if cs.contains '\'' && !cs.contains '"' then '"' else '\''

/-- The text in quotes. -/
def quote (cs : List Char) : List Char :=
  let mark := quoteFor cs
  mark :: (cs.flatMap (escapeChar mark) ++ [mark])

/-- Quoted texts separated by a comma and a space. -/
def quoteItems (items : List (List Char)) : List Char :=
  [',', ' '].intercalate (items.map quote)

/-- Quoted texts in brackets. -/
def quoteList (items : List (List Char)) : List Char :=
  '[' :: (quoteItems items ++ [']'])

/-- Quoted texts in parentheses, where a single one is followed by a comma. -/
def quoteTuple (items : List (List Char)) : List Char :=
  match items with
  | [item] => '(' :: (quote item ++ [',', ')'])
  | _ => '(' :: (quoteItems items ++ [')'])

end Text
end FormulaLine

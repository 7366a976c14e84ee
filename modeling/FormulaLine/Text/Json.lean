import FormulaLine.Text.Quoted

namespace FormulaLine

/-!
Records printed as JSON, two spaces per level, members in the order in which
they are given.  Characters beyond ASCII stand for themselves.
-/

inductive Json where
  | bool (value : Bool)
  | text (value : List Char)
  | array (items : List Json)
  | object (members : List (List Char × Json))

namespace Json

/-- How one character is written inside a JSON text. -/
def escapeChar (c : Char) : List Char :=
  if c = '"' then ['\\', '"']
  else if c = '\\' then ['\\', '\\']
  else if c = '\n' then ['\\', 'n']
  else if c = '\r' then ['\\', 'r']
  else if c = '\t' then ['\\', 't']
  else if c = '\x08' then ['\\', 'b']
  else if c = '\x0c' then ['\\', 'f']
  else if c.toNat < 0x20 then '\\' :: 'u' :: Text.hexDigits 4 c.toNat
  else [c]

/-- A JSON text in quotes. -/
def quoteText (cs : List Char) : List Char :=
  '"' :: (cs.flatMap escapeChar ++ ['"'])

/-- A new line indented to the given level. -/
def newline (level : Nat) : List Char :=
  '\n' :: List.replicate (2 * level) ' '

mutual

/-- The printed value, whose first line stands at the given level. -/
def render (level : Nat) : Json → List Char
  | .bool true => ['t', 'r', 'u', 'e']
  | .bool false => ['f', 'a', 'l', 's', 'e']
  | .text value => quoteText value
  | .array [] => ['[', ']']
  | .array (item :: items) =>
    '[' :: (newline (level + 1) ++ render (level + 1) item ++
      renderItems (level + 1) items ++ newline level ++ [']'])
  | .object [] => ['{', '}']
  | .object ((key, value) :: members) =>
    '{' :: (newline (level + 1) ++ quoteText key ++ [':', ' '] ++ render (level + 1) value ++
      renderMembers (level + 1) members ++ newline level ++ ['}'])

/-- The remaining items of an array, each after a comma on a line of its own. -/
def renderItems (level : Nat) : List Json → List Char
  | [] => []
  | item :: items => ',' :: (newline level ++ render level item ++ renderItems level items)

/-- The remaining members of an object. -/
def renderMembers (level : Nat) : List (List Char × Json) → List Char
  | [] => []
  | (key, value) :: members =>
    ',' :: (newline level ++ quoteText key ++ [':', ' '] ++ render level value ++
      renderMembers level members)

end

end Json
end FormulaLine

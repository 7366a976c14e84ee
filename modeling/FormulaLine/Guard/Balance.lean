namespace FormulaLine
namespace Guard

/-!
Balance of parentheses.  A text is balanced if every parenthesis has a partner.
The place of a fault is the first closing parenthesis without a partner, or else
the first opening parenthesis that is never closed.
-/

/-- The place of the fault in the rest of a text that starts at `position`, where
`pending` are the places of the open parentheses, the innermost first. -/
def faultAfter (pending : List Nat) (position : Nat) : List Char → Option Nat
  | [] => pending.getLast?
  | c :: rest =>
    if c = '(' then faultAfter (position :: pending) (position + 1) rest
    else if c = ')' then
      match pending with
      | [] => some position
      | _ :: outer => faultAfter outer (position + 1) rest
    else faultAfter pending (position + 1) rest

/-- The place where the balance of a text fails. -/
def imbalance? (text : List Char) : Option Nat :=
  faultAfter [] 0 text

end Guard
end FormulaLine

import FormulaLine.Proofs.Replacement
import FormulaLine.Split

namespace FormulaLine
namespace Split

/-!
# What is left of a text after the substitutions

The first two substitutions write a constant and a power with one character
each.  The third hides `exp`, and `restore` shows it again.  A text without the
placeholder therefore comes back in its condensed form, and no two markers stand
together in a substituted text.
-/

/-- The text with constants and powers written as single characters. -/
def condense (text : List Char) : List Char :=
  Text.replaceAll "**".toList ['^'] (Text.replaceAll "pi".toList ['π'] text)

theorem substitute_eq (text : List Char) :
    substitute text =
      Text.replaceAll "exp".toList [Vocabulary.expPlaceholder] (condense text) := rfl

theorem substitute_eq_nil_iff (text : List Char) : substitute text = [] ↔ text = [] := by
  rw [substitute_eq, condense, Text.replaceAll_eq_nil_iff (by decide) (by decide),
    Text.replaceAll_eq_nil_iff (by decide) (by decide),
    Text.replaceAll_eq_nil_iff (by decide) (by decide)]

/-! ## Restoring -/

/-- How a character of a substituted text is shown in a token. -/
def shown (c : Char) : List Char :=
  if c = Vocabulary.expPlaceholder then "exp".toList else [c]

theorem restore_eq_flatMap (token : List Char) : restore token = token.flatMap shown :=
  Text.replaceAll_singleton _ token

theorem restore_append (left right : List Char) :
    restore (left ++ right) = restore left ++ restore right := by
  simp only [restore_eq_flatMap, List.flatMap_append]

theorem restore_flatten (tokens : List (List Char)) :
    (tokens.map restore).flatten = restore tokens.flatten := by
  induction tokens with
  | nil => rfl
  | cons token tokens ih =>
      rw [List.map_cons, List.flatten_cons, List.flatten_cons, restore_append, ih]

theorem restore_eq_nil_iff (token : List Char) : restore token = [] ↔ token = [] :=
  Text.replaceAll_eq_nil_iff (by decide) (by decide) token

theorem restore_cons (c : Char) (token : List Char) :
    restore (c :: token) = shown c ++ restore token := by
  simp only [restore_eq_flatMap, List.flatMap_cons]

@[simp] theorem shown_marker : shown Vocabulary.marker = [Vocabulary.marker] := by
  decide

theorem restore_marker : restore markerGlyph = markerGlyph := by
  decide

/-- Only a shown `exp` adds characters. -/
theorem mem_restore {c : Char} {token : List Char} (member : c ∈ restore token) :
    c ∈ token ∨ c ∈ "exp".toList :=
  Text.mem_replaceAll (by decide) member

theorem restore_eq_self {token : List Char} (free : Vocabulary.expPlaceholder ∉ token) :
    restore token = token := by
  have absent : ¬ [Vocabulary.expPlaceholder] <:+: token :=
    fun found => free (found.subset List.mem_cons_self)
  exact Text.replaceAll_eq_self (by decide) absent

/-! ## Condensed texts -/

theorem mem_condense {c : Char} {text : List Char} (member : c ∈ condense text) :
    c ∈ text ∨ c = 'π' ∨ c = '^' := by
  rcases Text.mem_replaceAll (by decide) member with inner | power
  · rcases Text.mem_replaceAll (by decide) inner with old | constant
    · exact Or.inl old
    · exact Or.inr (Or.inl (List.mem_singleton.mp constant))
  · exact Or.inr (Or.inr (List.mem_singleton.mp power))

theorem placeholder_not_mem_condense {text : List Char}
    (free : Vocabulary.expPlaceholder ∉ text) : Vocabulary.expPlaceholder ∉ condense text := by
  intro member
  rcases mem_condense member with old | constant | power
  · exact free old
  · exact absurd constant (by decide)
  · exact absurd power (by decide)

/-- What stands together in a condensed text stood together as it was typed,
unless a constant or a power is part of it. -/
theorem infix_of_infix_condense {part text : List Char} (constants : 'π' ∉ part)
    (powers : '^' ∉ part) (found : part <:+: condense text) : part <:+: text :=
  Text.infix_of_infix_replaceAll (by decide) constants
    (Text.infix_of_infix_replaceAll (by decide) powers found)

theorem constant_not_infix_condense (text : List Char) : ¬ "pi".toList <:+: condense text := by
  intro found
  have before := Text.infix_of_infix_replaceAll (by decide) (by decide : '^' ∉ "pi".toList) found
  exact Text.not_infix_replaceAll (by decide) (by decide) text before

theorem power_not_infix_condense (text : List Char) : ¬ "**".toList <:+: condense text :=
  Text.not_infix_replaceAll (by decide) (by decide) _

/-! ## Substituted texts -/

theorem power_not_infix_substitute (text : List Char) : ¬ "**".toList <:+: substitute text := by
  intro found
  rw [substitute_eq] at found
  have before := Text.infix_of_infix_replaceAll (by decide) (by decide) found
  exact power_not_infix_condense text before

theorem exp_not_infix_substitute (text : List Char) : ¬ "exp".toList <:+: substitute text :=
  Text.not_infix_replaceAll (by decide) (by decide) _

/-- What stands at the start of a substituted text stood there as it was typed, unless
something substituted is part of it. -/
theorem prefix_of_prefix_substitute {part text : List Char} (constants : 'π' ∉ part)
    (powers : '^' ∉ part) (hidden : Vocabulary.expPlaceholder ∉ part)
    (found : part <+: substitute text) : part <+: text := by
  rw [substitute_eq] at found
  have condensed := Text.prefix_of_prefix_replaceAll (by decide) hidden found
  exact Text.prefix_of_prefix_replaceAll (by decide) constants
    (Text.prefix_of_prefix_replaceAll (by decide) powers condensed)

/-- What stands at the end of a substituted text stood at the end as it was typed,
unless something substituted is part of it. -/
theorem suffix_of_suffix_substitute {part text : List Char} (constants : 'π' ∉ part)
    (powers : '^' ∉ part) (hidden : Vocabulary.expPlaceholder ∉ part)
    (found : part <:+ substitute text) : part <:+ text := by
  rw [substitute_eq] at found
  have condensed := Text.suffix_of_suffix_replaceAll (by decide) hidden found
  exact Text.suffix_of_suffix_replaceAll (by decide) constants
    (Text.suffix_of_suffix_replaceAll (by decide) powers condensed)

/-- A text that shows none of the rewritten spellings stays as it is. -/
theorem substitute_eq_self {text : List Char} (constants : ¬ "pi".toList <:+: text)
    (powers : ¬ "**".toList <:+: text) (hidden : ¬ "exp".toList <:+: text) :
    substitute text = text := by
  rw [substitute_eq, condense, Text.replaceAll_eq_self (by decide) constants,
    Text.replaceAll_eq_self (by decide) powers, Text.replaceAll_eq_self (by decide) hidden]

theorem restore_substitute {text : List Char} (free : Vocabulary.expPlaceholder ∉ text) :
    restore (substitute text) = condense text :=
  Text.replaceAll_replaceAll_singleton (by decide) (placeholder_not_mem_condense free)

theorem power_not_infix_restore {token : List Char} (single : ¬ "**".toList <:+: token) :
    ¬ "**".toList <:+: restore token := by
  intro found
  have disjoint : ∀ c ∈ "exp".toList, c ∉ "**".toList := by
    change ∀ c ∈ ['e', 'x', 'p'], c ∉ ['*', '*']
    simp
  exact single (Text.infix_of_infix_spelled disjoint found)

/-- A text that shows no constant and no power by its longer spelling, and hides
every `exp`, is what the substitutions make of its restored form. -/
theorem substitute_restore {token : List Char} (constants : ¬ "pi".toList <:+: restore token)
    (powers : ¬ "**".toList <:+: restore token) (hidden : ¬ "exp".toList <:+: token) :
    substitute (restore token) = token := by
  rw [substitute_eq, condense, Text.replaceAll_eq_self (by decide) constants,
    Text.replaceAll_eq_self (by decide) powers]
  exact Text.replaceAll_spelled (by decide) hidden

end Split
end FormulaLine

namespace FormulaLine
namespace Text

/-!
Blank characters and trimming.  A character is blank when Unicode gives it the
property White_Space, or when it is one of the four ASCII information
separators U+001C to U+001F.
-/

/-- The blank code points, as inclusive ranges in increasing order. -/
def blankRanges : List (Nat × Nat) :=
  [(0x09, 0x0D), (0x1C, 0x20), (0x85, 0x85), (0xA0, 0xA0), (0x1680, 0x1680),
   (0x2000, 0x200A), (0x2028, 0x2029), (0x202F, 0x202F), (0x205F, 0x205F), (0x3000, 0x3000)]

/-- Whether the character is blank. -/
def isBlank (c : Char) : Bool :=
  blankRanges.any fun range => range.1 ≤ c.toNat && c.toNat ≤ range.2

/-- Drops the characters at both ends that satisfy the predicate. -/
def trimBy (drop : Char → Bool) (cs : List Char) : List Char :=
  ((cs.dropWhile drop).reverse.dropWhile drop).reverse

/-- Drops the blank characters at both ends. -/
def trim (cs : List Char) : List Char :=
  trimBy isBlank cs

/-- The text is the line without the blanks around it. -/
structure Trims (line text : List Char) : Prop where
  around : ∃ before behind, line = before ++ (text ++ behind) ∧
    ∀ c ∈ before ++ behind, isBlank c = true
  head : ∀ c ∈ text.head?, isBlank c = false
  last : ∀ c ∈ text.getLast?, isBlank c = false

/-- Blanks in front of a text that does not begin with one. -/
theorem exists_blanks_append (text : List Char) :
    ∃ before, text = before ++ text.dropWhile isBlank ∧ (∀ c ∈ before, isBlank c = true) ∧
      ∀ c ∈ (text.dropWhile isBlank).head?, isBlank c = false := by
  refine ⟨text.takeWhile isBlank, List.takeWhile_append_dropWhile.symm,
    List.all_eq_true.mp List.all_takeWhile, fun c head => ?_⟩
  have first := List.head?_dropWhile_not isBlank text
  rw [Option.mem_def] at head
  simpa [head] using first

theorem trims_trim (line : List Char) : Trims line (trim line) := by
  rw [trim, trimBy]
  rcases exists_blanks_append line with ⟨before, front, blankBefore, head⟩
  generalize line.dropWhile isBlank = inner at front head
  rcases exists_blanks_append inner.reverse with ⟨behind, back, blankBehind, last⟩
  generalize inner.reverse.dropWhile isBlank = text at back last
  have whole : inner = text.reverse ++ behind.reverse := by
    rw [← List.reverse_append, ← back, List.reverse_reverse]
  refine ⟨⟨before, behind.reverse, by rw [← whole, front], ?_⟩, fun c first => ?_, ?_⟩
  · simpa [or_imp, forall_and] using ⟨blankBefore, blankBehind⟩
  · apply head
    rw [whole, List.head?_append, Option.mem_def.mp first]
    rfl
  · simpa using last
end Text
end FormulaLine

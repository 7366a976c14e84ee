namespace FormulaLine
namespace Text

/-!
The order of texts by code points.
-/

/-- Compares texts by their first different character. -/
def compare : List Char → List Char → Ordering
  | [], [] => .eq
  | [], _ :: _ => .lt
  | _ :: _, [] => .gt
  | a :: as, b :: bs =>
    if a.toNat < b.toNat then .lt
    else if b.toNat < a.toNat then .gt
    else compare as bs

/-- Inserts a text into an ordered list. -/
def insert (a : List Char) : List (List Char) → List (List Char)
  | [] => [a]
  | b :: rest => if compare a b == .gt then b :: insert a rest else a :: b :: rest

/-- Orders texts by code points. -/
def sort : List (List Char) → List (List Char)
  | [] => []
  | a :: rest => insert a (sort rest)

section Sorted

variable {a b : List Char} {texts : List (List Char)}

theorem mem_insert : a ∈ insert b texts ↔ a = b ∨ a ∈ texts := by
  induction texts with
  | nil => simp [insert]
  | cons first rest ih =>
    rw [insert]
    split <;> simp [ih, or_left_comm]

@[simp] theorem mem_sort : a ∈ sort texts ↔ a ∈ texts := by
  induction texts with
  | nil => rfl
  | cons first rest ih => rw [sort, mem_insert, ih, List.mem_cons]

@[simp] theorem sort_eq_nil_iff : sort texts = [] ↔ texts = [] := by
  simp only [List.eq_nil_iff_forall_not_mem, mem_sort]

end Sorted

end Text
end FormulaLine

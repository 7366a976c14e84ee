import FormulaLine.Completion.Table
import Mathlib.Data.List.Nodup

namespace FormulaLine
namespace Completion

/-!
# Lists without their repetitions

`List.eraseDups` keeps the first appearance of each element.  It commutes with
filters, and a repetition that is erased before a map changes nothing about the
first appearances of the images.

An element that is kept filters what comes behind it, so the induction is along
these filtered rests (`eraseDups_induction`).
-/

/-- A filter that a second one refines does nothing before it. -/
theorem filter_filter_of_imp {α : Type} {first second : α → Bool}
    (implies : ∀ a, first a = true → second a = true) (list : List α) :
    (list.filter second).filter first = list.filter first := by
  rw [List.filter_filter]
  apply List.filter_congr
  intro a _
  cases kept : first a with
  | false => rfl
  | true => rw [implies a kept, Bool.and_self]

section EraseDups

variable {α β : Type} [BEq α]

theorem eraseDups_induction {motive : List α → Prop} (nil : motive [])
    (cons : ∀ a rest, motive (rest.filter fun b => !b == a) → motive (a :: rest)) :
    (list : List α) → motive list
  | [] => nil
  | a :: rest => cons a rest (eraseDups_induction nil cons (rest.filter fun b => !b == a))
termination_by list => list.length
decreasing_by exact Nat.lt_succ_of_le (List.length_filter_le _ rest)

variable [LawfulBEq α] [BEq β] [LawfulBEq β]

theorem not_beq_iff_ne {a b : α} : (!b == a) = true ↔ b ≠ a := by
  rw [Bool.not_eq_true', beq_eq_false_iff_ne]

theorem nodup_eraseDups (list : List α) : list.eraseDups.Nodup := by
  induction list using eraseDups_induction with
  | nil => exact List.nodup_nil
  | cons a rest ih =>
      rw [List.eraseDups_cons, List.nodup_cons]
      refine ⟨?_, ih⟩
      intro member
      have kept := List.of_mem_filter (List.mem_eraseDups.mp member)
      exact not_beq_iff_ne.mp kept rfl

theorem eraseDups_eq_self {list : List α} (nodup : list.Nodup) : list.eraseDups = list := by
  induction list with
  | nil => rfl
  | cons a rest ih =>
      rcases List.nodup_cons.mp nodup with ⟨fresh, nodupRest⟩
      have kept : rest.filter (fun b => !b == a) = rest := by
        apply List.filter_eq_self.mpr
        intro b member
        exact not_beq_iff_ne.mpr fun same => fresh (same ▸ member)
      rw [List.eraseDups_cons, kept, ih nodupRest]

theorem eraseDups_filter (keep : α → Bool) (list : List α) :
    (list.filter keep).eraseDups = list.eraseDups.filter keep := by
  induction list using eraseDups_induction with
  | nil => rfl
  | cons a rest ih =>
      rw [List.eraseDups_cons]
      cases kept : keep a with
      | true =>
          rw [List.filter_cons_of_pos kept, List.filter_cons_of_pos kept, List.eraseDups_cons, ← ih,
            List.filter_filter, List.filter_filter]
          simp only [Bool.and_comm]
      | false =>
          have dropped : ¬ keep a = true := Bool.eq_false_iff.mp kept
          have others : ∀ b, keep b = true → (!b == a) = true := by
            intro b keptOther
            exact not_beq_iff_ne.mpr fun same => dropped (same ▸ keptOther)
          rw [List.filter_cons_of_neg dropped, List.filter_cons_of_neg dropped, ← ih,
            filter_filter_of_imp others]

/-- An element that is erased as a repetition moves no image. -/
theorem eraseDups_map_eraseDups (f : α → β) (list : List α) :
    (list.eraseDups.map f).eraseDups = (list.map f).eraseDups := by
  induction list using eraseDups_induction with
  | nil => rfl
  | cons a rest ih =>
      have others : ∀ b, (!f b == f a) = true → (!b == a) = true := by
        intro b different
        exact not_beq_iff_ne.mpr fun same => not_beq_iff_ne.mp different (congrArg f same)
      have images : ((rest.filter fun b => !b == a).map f).filter (fun d => !d == f a) =
          (rest.map f).filter fun d => !d == f a := by
        rw [List.filter_map, List.filter_map]
        exact congrArg (List.map f) (filter_filter_of_imp others rest)
      rw [List.eraseDups_cons, List.map_cons, List.eraseDups_cons, List.map_cons,
        List.eraseDups_cons, eraseDups_filter, ih, ← eraseDups_filter, images]

end EraseDups

theorem firstAppearances_eq (list : List (List Char)) :
    firstAppearances list = list.eraseDups := by
  induction list with
  | nil => rfl
  | cons a rest ih =>
      rw [firstAppearances, List.eraseDups_cons, eraseDups_filter, ih]
      rfl

end Completion
end FormulaLine

import FormulaLine.Completion.Order
import Mathlib.Data.List.Lex

namespace FormulaLine
namespace Completion

/-!
# The display order of candidates

The Boolean test of the sort says "may stand before", which an equal candidate
may.  `ShownBefore` is the strict order of the display, stated with the
lexicographic order of code points, and the test is its reflexive closure.  The
test is total and transitive, so sorting arranges every list of candidates, and a
list of different candidates strictly.
-/

/-- The lexicographic order of code points. -/
def CodeBefore (a b : List Char) : Prop :=
  List.Lex (fun c d => c.toNat < d.toNat) a b

theorem codeBefore_cons_iff (c d : Char) (a b : List Char) :
    CodeBefore (c :: a) (d :: b) ↔ c.toNat < d.toNat ∨ c = d ∧ CodeBefore a b :=
  List.cons_lex_cons_iff

/-- A shorter candidate is shown before a longer one, and of two candidates of one
length the later one in the order of code points. -/
def ShownBefore (a b : List Char) : Prop :=
  a.length < b.length ∨ a.length = b.length ∧ CodeBefore b a

/-! ## Laws of the test -/

theorem notBefore_cons_iff (c d : Char) (a b : List Char) :
    notBefore (c :: a) (d :: b) = true ↔ d.toNat < c.toNat ∨ c = d ∧ notBefore a b = true := by
  rw [notBefore, Bool.or_eq_true, Bool.and_eq_true, decide_eq_true_eq, beq_iff_eq]

theorem notBefore_iff (a b : List Char) : notBefore a b = true ↔ a = b ∨ CodeBefore b a := by
  induction a generalizing b with
  | nil =>
      cases b with
      | nil => simp [notBefore]
      | cons d b => simp [notBefore, CodeBefore]
  | cons c a ih =>
      cases b with
      | nil => simp [notBefore, CodeBefore]
      | cons d b =>
          rw [notBefore_cons_iff, ih b, codeBefore_cons_iff, List.cons.injEq]
          constructor
          · rintro (earlier | ⟨rfl, rfl | later⟩)
            · exact Or.inr (Or.inl earlier)
            · exact Or.inl ⟨rfl, rfl⟩
            · exact Or.inr (Or.inr ⟨rfl, later⟩)
          · rintro (⟨rfl, rfl⟩ | earlier | ⟨rfl, later⟩)
            · exact Or.inr ⟨rfl, Or.inl rfl⟩
            · exact Or.inl earlier
            · exact Or.inr ⟨rfl, Or.inr later⟩

theorem notBefore_total (a b : List Char) : notBefore a b = true ∨ notBefore b a = true := by
  induction a generalizing b with
  | nil => exact Or.inr (by cases b <;> rfl)
  | cons c a ih =>
      cases b with
      | nil => exact Or.inl rfl
      | cons d b =>
          rw [notBefore_cons_iff, notBefore_cons_iff]
          rcases Nat.lt_trichotomy c.toNat d.toNat with less | same | greater
          · exact Or.inr (Or.inl less)
          · have equal : c = d := Char.toNat_inj.mp same
            rcases ih b with first | second
            · exact Or.inl (Or.inr ⟨equal, first⟩)
            · exact Or.inr (Or.inr ⟨equal.symm, second⟩)
          · exact Or.inl (Or.inl greater)

theorem notBefore_trans {a b c : List Char} (first : notBefore a b = true)
    (second : notBefore b c = true) : notBefore a c = true := by
  induction a generalizing b c with
  | nil =>
      cases b with
      | nil => exact second
      | cons d b => cases first
  | cons x a ih =>
      cases c with
      | nil => rfl
      | cons z c =>
          cases b with
          | nil => cases second
          | cons y b =>
              rw [notBefore_cons_iff] at first second ⊢
              rcases first with greater | ⟨rfl, first⟩
              · rcases second with more | ⟨rfl, -⟩
                · exact Or.inl (Nat.lt_trans more greater)
                · exact Or.inl greater
              · rcases second with more | ⟨rfl, second⟩
                · exact Or.inl more
                · exact Or.inr ⟨rfl, ih first second⟩

theorem notBefore_antisymm {a b : List Char} (first : notBefore a b = true)
    (second : notBefore b a = true) : a = b := by
  induction a generalizing b with
  | nil =>
      cases b with
      | nil => rfl
      | cons d b => cases first
  | cons c a ih =>
      cases b with
      | nil => cases second
      | cons d b =>
          rw [notBefore_cons_iff] at first second
          rcases first with greater | ⟨rfl, first⟩
          · rcases second with less | ⟨rfl, -⟩
            · exact absurd less (Nat.lt_asymm greater)
            · exact absurd greater (Nat.lt_irrefl _)
          · rcases second with less | ⟨-, second⟩
            · exact absurd less (Nat.lt_irrefl _)
            · exact congrArg (c :: ·) (ih first second)

theorem precedes_iff (a b : List Char) :
    precedes a b = true ↔
      a.length < b.length ∨ a.length = b.length ∧ notBefore a b = true := by
  rw [precedes, Bool.or_eq_true, Bool.and_eq_true, decide_eq_true_eq, beq_iff_eq]

theorem shownBefore_of_precedes {a b : List Char} (precedes : precedes a b = true)
    (different : a ≠ b) : ShownBefore a b := by
  rcases (precedes_iff a b).mp precedes with shorter | ⟨same, later⟩
  · exact Or.inl shorter
  · rcases (notBefore_iff a b).mp later with equal | before
    · exact absurd equal different
    · exact Or.inr ⟨same, before⟩

theorem precedes_total (a b : List Char) : precedes a b = true ∨ precedes b a = true := by
  rw [precedes_iff, precedes_iff]
  rcases Nat.lt_trichotomy a.length b.length with shorter | same | longer
  · exact Or.inl (Or.inl shorter)
  · rcases notBefore_total a b with first | second
    · exact Or.inl (Or.inr ⟨same, first⟩)
    · exact Or.inr (Or.inr ⟨same.symm, second⟩)
  · exact Or.inr (Or.inl longer)

theorem precedes_trans {a b c : List Char} (first : precedes a b = true)
    (second : precedes b c = true) : precedes a c = true := by
  rw [precedes_iff] at first second ⊢
  rcases first with shorter | ⟨same, later⟩
  · rcases second with less | ⟨equal, -⟩
    · exact Or.inl (Nat.lt_trans shorter less)
    · exact Or.inl (equal ▸ shorter)
  · rcases second with less | ⟨equal, more⟩
    · exact Or.inl (same ▸ less)
    · exact Or.inr ⟨same.trans equal, notBefore_trans later more⟩

theorem precedes_antisymm {a b : List Char} (first : precedes a b = true)
    (second : precedes b a = true) : a = b := by
  rw [precedes_iff] at first second
  rcases first with shorter | ⟨same, later⟩
  · rcases second with longer | ⟨same, -⟩
    · exact absurd longer (Nat.lt_asymm shorter)
    · exact absurd same (Nat.ne_of_gt shorter)
  · rcases second with longer | ⟨-, earlier⟩
    · exact absurd same (Nat.ne_of_gt longer)
    · exact notBefore_antisymm later earlier

/-! ## Sorting -/

theorem insertCandidate_perm (c : List Char) (candidates : List (List Char)) :
    (insertCandidate c candidates).Perm (c :: candidates) := by
  induction candidates with
  | nil => exact .refl [c]
  | cons d rest ih =>
      rw [insertCandidate]
      split
      · exact .refl _
      · exact (ih.cons d).trans (.swap c d rest)

theorem sortCandidates_perm (candidates : List (List Char)) :
    (sortCandidates candidates).Perm candidates := by
  induction candidates with
  | nil => exact .refl []
  | cons c rest ih => exact (insertCandidate_perm c _).trans (ih.cons c)

theorem insertCandidate_pairwise (c : List Char) {candidates : List (List Char)}
    (sorted : candidates.Pairwise (precedes · · = true)) :
    (insertCandidate c candidates).Pairwise (precedes · · = true) := by
  induction candidates with
  | nil => exact List.pairwise_singleton _ c
  | cons d rest ih =>
      rcases List.pairwise_cons.mp sorted with ⟨least, sortedRest⟩
      rw [insertCandidate]
      by_cases here : precedes c d = true
      · rw [if_pos here]
        refine List.pairwise_cons.mpr ⟨?_, sorted⟩
        intro e member
        rcases List.mem_cons.mp member with rfl | later
        · exact here
        · exact precedes_trans here (least e later)
      · rw [if_neg here]
        have before : precedes d c = true := (precedes_total c d).resolve_left here
        refine List.pairwise_cons.mpr ⟨?_, ih sortedRest⟩
        intro e member
        rcases List.mem_cons.mp ((insertCandidate_perm c rest).mem_iff.mp member) with rfl | later
        · exact before
        · exact least e later

theorem sortCandidates_pairwise (candidates : List (List Char)) :
    (sortCandidates candidates).Pairwise (precedes · · = true) := by
  induction candidates with
  | nil => exact .nil
  | cons c rest ih => exact insertCandidate_pairwise c ih

theorem sortCandidates_nodup {candidates : List (List Char)} (nodup : candidates.Nodup) :
    (sortCandidates candidates).Nodup :=
  (sortCandidates_perm candidates).nodup_iff.mpr nodup

/-- Different candidates stand in the strict order. -/
theorem sortCandidates_shownBefore {candidates : List (List Char)} (nodup : candidates.Nodup) :
    (sortCandidates candidates).Pairwise ShownBefore :=
  ((sortCandidates_pairwise candidates).and (sortCandidates_nodup nodup)).imp
    fun both => shownBefore_of_precedes both.1 both.2

end Completion
end FormulaLine

import FormulaLine.Proofs.DisplayOrder

namespace FormulaLine
namespace Completion

/-!
# The display order in two passes

Candidates can be sorted by code points first, the later ones in front, and then
by length.  The second pass compares lengths only.  What it keeps of the first it
keeps by its stability: candidates of one length tie, and ties come out as they
stood.

Of the two sorts nothing is used but that they sort and are stable, so the result
hangs on no algorithm.  It is the display order, in which two candidates can stand
either way round only if they are equal.  The order in which a vocabulary yields its
completions is therefore lost: the same candidates are always arranged alike.
-/

/-! ## Stable sorts -/

section Stability

variable {α : Type} {le : α → α → Bool} {sort : List α → List α}

/-- Whether the order lets either of the two stand first. -/
def ties (le : α → α → Bool) (a b : α) : Bool :=
  le a b && le b a

theorem ties_iff (a b : α) : ties le a b = true ↔ le a b = true ∧ le b a = true := by
  rw [ties, Bool.and_eq_true]

/-- The sort arranges every list by the order and is stable: elements that tie come
out in the sequence in which they came. -/
structure SortsStably (le : α → α → Bool) (sort : List α → List α) : Prop where
  perm : ∀ list, (sort list).Perm list
  sorted : ∀ list, (sort list).Pairwise (le · · = true)
  stable : ∀ list a, (sort list).filter (ties le a) = list.filter (ties le a)

/-- Of two elements that tie, the one in front was in front before. -/
theorem SortsStably.sublist_of_ties (sorts : SortsStably le sort) {list : List α} {a b : α}
    (reflexive : le a a = true) (tied : ties le a b = true)
    (inFront : [a, b].Sublist (sort list)) : [a, b].Sublist list := by
  have both : [a, b].filter (ties le a) = [a, b] := by
    have alone : ties le a a = true := (ties_iff a a).mpr ⟨reflexive, reflexive⟩
    rw [List.filter_cons_of_pos alone, List.filter_cons_of_pos tied, List.filter_nil]
  have kept : [a, b].Sublist (list.filter (ties le a)) := by
    rw [← sorts.stable, ← both]
    exact inFront.filter (ties le a)
  exact kept.trans List.filter_sublist

/-- The second of two sorts decides, and where it does not, the first has. -/
theorem SortsStably.pairwise_of_passes {first second : α → α → Bool}
    {firstPass secondPass : List α → List α} (sortsFirst : SortsStably first firstPass)
    (sortsSecond : SortsStably second secondPass) (reflexive : ∀ a, second a a = true)
    (list : List α) :
    (secondPass (firstPass list)).Pairwise fun a b =>
      second a b = true ∧ (second b a = true → first a b = true) := by
  rw [List.pairwise_iff_forall_sublist]
  intro a b inFront
  have ordered : second a b = true :=
    List.pairwise_iff_forall_sublist.mp (sortsSecond.sorted (firstPass list)) inFront
  refine ⟨ordered, ?_⟩
  intro reverse
  have tied : ties second a b = true := (ties_iff a b).mpr ⟨ordered, reverse⟩
  have before : [a, b].Sublist (firstPass list) :=
    sortsSecond.sublist_of_ties (reflexive a) tied inFront
  exact List.pairwise_iff_forall_sublist.mp (sortsFirst.sorted list) before

/-- Merge sort sorts stably by every total preorder. -/
theorem sortsStably_mergeSort
    (transitive : ∀ a b c, le a b = true → le b c = true → le a c = true)
    (total : ∀ a b, (le a b || le b a) = true) : SortsStably le (List.mergeSort · le) where
  perm list := List.mergeSort_perm list le
  sorted list := List.pairwise_mergeSort transitive total list
  stable list a := by
    -- What ties with `a` stands in order already, so it is kept whole and in sequence.
    have inOrder : (list.filter (ties le a)).Pairwise (le · · = true) := by
      refine List.pairwise_of_forall_mem_list ?_
      intro b inFilter c alsoInFilter
      have behind : le b a = true := ((ties_iff a b).mp (List.of_mem_filter inFilter)).2
      have ahead : le a c = true := ((ties_iff a c).mp (List.of_mem_filter alsoInFilter)).1
      exact transitive b a c behind ahead
    have kept : (list.filter (ties le a)).Sublist ((list.mergeSort le).filter (ties le a)) := by
      have whole := List.sublist_mergeSort transitive total inOrder List.filter_sublist
      simpa only [List.filter_filter, Bool.and_self] using whole.filter (ties le a)
    have asMany := ((List.mergeSort_perm list le).filter (ties le a)).length_eq
    exact (kept.eq_of_length asMany.symm).symm

end Stability

/-! ## Candidates -/

/-- Whether `a` has at most as many characters as `b`. -/
def noLonger (a b : List Char) : Bool :=
  a.length ≤ b.length

theorem noLonger_iff (a b : List Char) : noLonger a b = true ↔ a.length ≤ b.length :=
  decide_eq_true_iff

theorem sortsStably_notBefore : SortsStably notBefore (List.mergeSort · notBefore) := by
  apply sortsStably_mergeSort
  · intro a b c
    exact notBefore_trans
  · intro a b
    exact Bool.or_eq_true_iff.mpr (notBefore_total a b)

theorem sortsStably_noLonger : SortsStably noLonger (List.mergeSort · noLonger) := by
  apply sortsStably_mergeSort
  · intro a b c
    rw [noLonger_iff, noLonger_iff, noLonger_iff]
    exact Nat.le_trans
  · intro a b
    rw [Bool.or_eq_true_iff, noLonger_iff, noLonger_iff]
    exact Nat.le_total a.length b.length

/-- Length decides before code points do. -/
theorem precedes_of_noLonger {a b : List Char} (ordered : noLonger a b = true)
    (tied : noLonger b a = true → notBefore a b = true) : precedes a b = true := by
  rw [precedes_iff]
  rcases Nat.lt_or_eq_of_le ((noLonger_iff a b).mp ordered) with shorter | same
  · exact Or.inl shorter
  · exact Or.inr ⟨same, tied ((noLonger_iff b a).mpr (Nat.le_of_eq same.symm))⟩

/-- There is one arrangement of the candidates in display order. -/
theorem eq_sortCandidates {arranged candidates : List (List Char)}
    (perm : arranged.Perm candidates) (sorted : arranged.Pairwise (precedes · · = true)) :
    arranged = sortCandidates candidates :=
  List.Perm.eq_of_pairwise (fun _ _ _ _ => precedes_antisymm) sorted
    (sortCandidates_pairwise candidates) (perm.trans (sortCandidates_perm candidates).symm)

theorem sortCandidates_eq_iff (others candidates : List (List Char)) :
    sortCandidates others = sortCandidates candidates ↔ others.Perm candidates := by
  constructor
  · intro same
    have shown := same ▸ (sortCandidates_perm others).symm
    exact shown.trans (sortCandidates_perm candidates)
  · intro perm
    exact eq_sortCandidates ((sortCandidates_perm others).trans perm)
      (sortCandidates_pairwise others)

/-- Two stable passes give the display order. -/
theorem SortsStably.passes_eq_sortCandidates {byCode byLength : List (List Char) → List (List Char)}
    (codeSort : SortsStably notBefore byCode) (lengthSort : SortsStably noLonger byLength)
    (candidates : List (List Char)) :
    byLength (byCode candidates) = sortCandidates candidates := by
  have perm : (byLength (byCode candidates)).Perm candidates :=
    (lengthSort.perm (byCode candidates)).trans (codeSort.perm candidates)
  have reflexive : ∀ a, noLonger a a = true := fun a => (noLonger_iff a a).mpr (Nat.le_refl _)
  have passes := codeSort.pairwise_of_passes lengthSort reflexive candidates
  exact eq_sortCandidates perm (passes.imp fun both => precedes_of_noLonger both.1 both.2)

/-- The display order is canonical.  The candidates stay the same, each as often as
before; of two neighbours the first is shorter, or as long and not before the second
in the order of code points; and two lists are arranged alike if and only if they
are rearrangements of each other.  A stable sort by descending code points and a
stable sort by length, one after the other, arrive at this order. -/
theorem sortCandidates_canonical (candidates : List (List Char)) :
    (sortCandidates candidates).Perm candidates ∧
      (sortCandidates candidates).IsChain (fun a b =>
        a.length < b.length ∨ a.length = b.length ∧ (a = b ∨ CodeBefore b a)) ∧
      (∀ others, sortCandidates others = sortCandidates candidates ↔ others.Perm candidates) ∧
      ∀ byCode byLength, SortsStably notBefore byCode → SortsStably noLonger byLength →
        byLength (byCode candidates) = sortCandidates candidates := by
  refine ⟨sortCandidates_perm candidates, ?_, ?_, ?_⟩
  · apply (sortCandidates_pairwise candidates).isChain.imp
    intro a b ordered
    rwa [precedes_iff, notBefore_iff] at ordered
  · intro others
    exact sortCandidates_eq_iff others candidates
  · intro byCode byLength codeSort lengthSort
    exact codeSort.passes_eq_sortCandidates lengthSort candidates

theorem sortCandidates_canonical_of_mergeSort :
    let candidates := ["inh(".toList, "qrt(".toList, "in(".toList, "inh(".toList]
    SortsStably notBefore (List.mergeSort · notBefore) ∧
      SortsStably noLonger (List.mergeSort · noLonger) ∧
      (candidates.mergeSort notBefore).mergeSort noLonger = sortCandidates candidates :=
  ⟨sortsStably_notBefore, sortsStably_noLonger,
    (sortCandidates_canonical _).2.2.2 _ _ sortsStably_notBefore sortsStably_noLonger⟩

/-- Equal candidates are all kept, and of one length the later ones stand first. -/
example : sortCandidates ["inh(".toList, "qrt(".toList, "in(".toList, "inh(".toList] =
    ["in(".toList, "qrt(".toList, "inh(".toList, "inh(".toList] := by
  decide

end Completion
end FormulaLine

import FormulaLine.Proofs.Tokens

namespace FormulaLine
namespace Split

open GlyphClass

/-!
# The finer policy

Both policies run through a text with the same classes.  They decide differently
only behind an opening parenthesis, where a multiplication token goes on unless a
marker follows.  So the finer tokens are the pieces that a cut behind each inner
opening parenthesis makes of the coarser ones.

The comparison carries the character before the open token: it is the character
whose class decides whether the finer policy cuts.
-/

/-! ## Pieces of a token -/

/-- Cuts a token behind each opening parenthesis that is not its last character:
the first piece, and the other pieces. -/
def cutBehind : List Char → List Char × List (List Char)
  | [] => ([], [])
  | [c] => ([c], [])
  | c :: d :: rest =>
    let (piece, others) := cutBehind (d :: rest)
    if c = '(' then ([c], piece :: others) else (c :: piece, others)

/-- The pieces of a token.  An empty token is one empty piece. -/
def pieces (token : List Char) : List (List Char) :=
  (cutBehind token).1 :: (cutBehind token).2

theorem pieces_ne_nil (token : List Char) : pieces token ≠ [] :=
  List.cons_ne_nil _ _

theorem pieces_singleton (c : Char) : pieces [c] = [[c]] := rfl

theorem pieces_opening {token : List Char} (nonempty : token ≠ []) :
    pieces ('(' :: token) = ['('] :: pieces token := by
  rcases List.exists_cons_of_ne_nil nonempty with ⟨d, rest, rfl⟩
  rfl

theorem pieces_cons {c : Char} (other : c ≠ '(') (token : List Char) :
    pieces (c :: token) = (c :: (cutBehind token).1) :: (cutBehind token).2 := by
  cases token with
  | nil => rfl
  | cons d rest =>
      rw [pieces, cutBehind]
      simp only [if_neg other]

theorem pieces_append {part : List Char} (free : '(' ∉ part) (token : List Char) :
    pieces (part ++ token) = (part ++ (cutBehind token).1) :: (cutBehind token).2 := by
  induction part with
  | nil => rfl
  | cons c part ih =>
      have other : c ≠ '(' := by
        rintro rfl
        exact free List.mem_cons_self
      have later := ih (fun member => free (List.mem_cons_of_mem c member))
      rcases List.cons.inj later with ⟨first, others⟩
      rw [List.cons_append, pieces_cons other, first, others]
      rfl

theorem pieces_of_not_mem {token : List Char} (free : '(' ∉ token) : pieces token = [token] := by
  have whole := pieces_append free []
  rwa [List.append_nil, show (cutBehind []).1 = [] from rfl, List.append_nil] at whole

/-- Only at its end a piece holds an opening parenthesis. -/
theorem opening_not_mem_dropLast_pieces (token : List Char) :
    ∀ piece ∈ pieces token, '(' ∉ piece.dropLast := by
  induction token with
  | nil => simp [pieces, cutBehind]
  | cons c token ih =>
      by_cases opening : c = '('
      · subst opening
        by_cases empty : token = []
        · subst empty
          simp [pieces_singleton]
        · rw [pieces_opening empty]
          intro piece member
          rcases List.mem_cons.mp member with rfl | later
          · simp
          · exact ih piece later
      · rw [pieces_cons opening]
        intro piece member
        rcases List.mem_cons.mp member with rfl | later
        · have free := ih (cutBehind token).1 List.mem_cons_self
          cases first : (cutBehind token).1 with
          | nil => simp
          | cons d rest =>
              rw [first] at free
              rw [List.dropLast_cons_cons, List.mem_cons, not_or]
              exact ⟨fun same => opening same.symm, free⟩
        · exact ih piece (List.mem_cons_of_mem _ later)

/-- Showing `exp` again neither makes nor hides a place to cut. -/
theorem pieces_restore (token : List Char) :
    pieces (restore token) = (pieces token).map restore := by
  induction token with
  | nil => rfl
  | cons c token ih =>
      rw [restore_cons]
      by_cases opening : c = '('
      · subst opening
        have shownOpening : shown '(' = ['('] := by decide
        have restoreOpening : restore ['('] = ['('] := by decide
        rw [shownOpening, List.singleton_append]
        by_cases empty : token = []
        · subst empty
          rw [show restore [] = [] from rfl, pieces_singleton, List.map_singleton, restoreOpening]
        · have shownNonempty : restore token ≠ [] := fun none =>
            empty ((restore_eq_nil_iff token).mp none)
          rw [pieces_opening shownNonempty, pieces_opening empty, List.map_cons, restoreOpening, ih]
      · have free : '(' ∉ shown c := by
          intro member
          rw [shown] at member
          split at member
          · exact absurd member (by decide)
          · exact opening (List.mem_singleton.mp member).symm
        rcases List.cons.inj ih with ⟨first, others⟩
        rw [pieces_append free, pieces_cons opening, first, others, List.map_cons, restore_cons]

/-! ## One run beside the other -/

/-- Where the coarser run goes on, the finer one cuts exactly behind an opening
parenthesis. -/
theorem startsFactor_term_of_continues {previous : GlyphClass} {p c : Char}
    (describes : previous.Describes p)
    (continues : startsFactor .multiplication [c] (previous.after [c]) previous = false) :
    startsFactor .term [c] (previous.after [c]) previous = (p == '(') := by
  rw [startsFactor_term, continues, Bool.or_false, describes.openParen]

/-- The finer tokens behind a character `p` are the pieces of the coarser tokens
behind it, the open token taken with `p` in front. -/
theorem splitAfter_term {previous : GlyphClass} {p : Char} (describes : previous.Describes p)
    (text : List Char) :
    (p :: (splitAfter .term previous (glyphs text)).1) ::
        (splitAfter .term previous (glyphs text)).2 =
      pieces (p :: (splitAfter .multiplication previous (glyphs text)).1) ++
        (splitAfter .multiplication previous (glyphs text)).2.flatMap pieces := by
  induction text generalizing previous p with
  | nil => rfl
  | cons c rest ih =>
      have later := ih (describes_after previous c)
      rw [glyphs_cons]
      cases starts : startsFactor .multiplication [c] (previous.after [c]) previous with
      | true =>
          rw [splitAfter_of_starts starts,
            splitAfter_of_starts (startsFactor_of_multiplication .term starts)]
          by_cases marker : c = Vocabulary.marker
          · subst marker
            have other : Vocabulary.marker ≠ '(' := by decide
            rw [pieces_cons other] at later
            rcases List.cons.inj later with ⟨first, others⟩
            rw [written_marker, List.nil_append, List.nil_append, (List.cons.inj first).2, others,
              List.flatMap_cons]
            rfl
          · rw [written_of_ne marker, List.singleton_append, List.singleton_append, later,
              List.flatMap_cons]
            rfl
      | false =>
          have written := written_of_ne (ne_marker_of_continues starts)
          have finer := startsFactor_term_of_continues describes starts
          rw [splitAfter_of_continues starts, written, List.singleton_append]
          by_cases opening : p = '('
          · subst opening
            rw [splitAfter_of_starts (finer.trans rfl), written, List.singleton_append, later,
              pieces_opening (List.cons_ne_nil c _)]
            rfl
          · rw [splitAfter_of_continues (finer.trans (beq_false_of_ne opening)), written,
              List.singleton_append, pieces_cons opening]
            rcases List.cons.inj later with ⟨first, others⟩
            rw [first, others]
            rfl

theorem splitGlyphs_term (text : List Char) :
    splitGlyphs .term (glyphs text) =
      (splitGlyphs .multiplication (glyphs text)).flatMap pieces := by
  cases text with
  | nil => rfl
  | cons c rest =>
      rw [splitGlyphs_cons, splitGlyphs_cons, splitAfter_term (describes_first c),
        List.flatMap_cons]

theorem split_term (text : List Char) :
    split .term text = (split .multiplication text).flatMap pieces := by
  rw [split, split, splitGlyphs_term, List.map_flatMap, List.flatMap_map]
  exact List.flatMap_congr fun token _ => (pieces_restore token).symm

theorem getLast?_flatMap_pieces {tokens : List (List Char)} {token : List Char}
    (last : tokens.getLast? = some token) :
    (tokens.flatMap pieces).getLast? = (pieces token).getLast? := by
  rcases List.getLast?_eq_some_iff.mp last with ⟨before, rfl⟩
  rw [List.flatMap_append, List.flatMap_singleton, List.getLast?_append_of_ne_nil _ (pieces_ne_nil token)]

/-- The finer tokens are the pieces of the coarser ones, in their order.  None
holds an opening parenthesis before its end, and the token that is being typed is
the last piece of the last coarser token. -/
theorem split_term_refines (text : List Char) :
    split .term text = (split .multiplication text).flatMap pieces ∧
      (∀ token ∈ split .term text, '(' ∉ token.dropLast) ∧
      lastTerm [] = [] ∧
      (text ≠ [] → ∃ token, (split .multiplication text).getLast? = some token ∧
        (pieces token).getLast? = some (lastTerm text)) := by
  refine ⟨split_term text, ?_, rfl, ?_⟩
  · intro token member
    rw [split_term] at member
    rcases List.mem_flatMap.mp member with ⟨coarse, -, inPieces⟩
    exact opening_not_mem_dropLast_pieces coarse token inPieces
  · intro nonempty
    have tokensNonempty := split_ne_nil .multiplication nonempty
    have last := List.getLast?_eq_some_getLast tokensNonempty
    refine ⟨_, last, ?_⟩
    have lastPiece := List.getLast?_eq_some_getLast (pieces_ne_nil
      ((split .multiplication text).getLast tokensNonempty))
    rw [lastTerm, split_term, List.getLastD_eq_getLast?, getLast?_flatMap_pieces last, lastPiece]
    rfl

/-- A marker behind an opening parenthesis opens one token under either policy,
and a token may end with a parenthesis. -/
example : split .term "(*sin((2x(".toList = ["(", "sin(", "(", "2", "x("].map String.toList ∧
    split .multiplication "(*sin((2x(".toList = ["(", "sin((2", "x("].map String.toList := by
  decide

end Split
end FormulaLine

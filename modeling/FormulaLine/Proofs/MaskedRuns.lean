import FormulaLine.Proofs.Continuation
import Mathlib.Data.List.TakeWhile

namespace FormulaLine
namespace GlyphClass

open Split

/-!
# What the masks mean

A mask is handed on one character at a time, and each step looks at the character
before only.  Over a whole text a mask is a matter of runs.  A symbol is masked if the
maximal run of symbols around it comes directly behind a letter that is no symbol.  A
digit is masked if the maximal run of digits around it comes directly behind a letter
that is no symbol or is a masked symbol.

The two masks differ in what raises them, and agree in how they pass along a run.  The
induction is therefore done once (`handedOn_iff`), along the text from its end: each
character is either one more of the run, or the one that the run comes behind.

`π` is a symbol and no letter.  Inside a name it is masked, and hands its mask on to
further symbols, but it raises no mask on a digit.
-/

/-! ## Maximal runs -/

/-- In a text made up of `before`, `run` and `behind`, the characters of `run` are of one
kind, and the characters next to it are not. -/
structure MaximalRun (kind : Char → Bool) (before run behind : List Char) : Prop where
  of_kind : ∀ c ∈ run, kind c = true
  begins : ∀ p, before.getLast? = some p → kind p = false
  ends : ∀ d, behind.head? = some d → kind d = false

/-- The maximal run that holds `c`, which stands between `before` and `behind`, comes
directly behind the character `p`, and `p` comes behind `outer`. -/
def RunBehind (kind : Char → Bool) (before : List Char) (c : Char) (behind : List Char)
    (outer : List Char) (p : Char) : Prop :=
  ∃ left right rest, before = outer ++ p :: left ∧ behind = right ++ rest ∧
    MaximalRun kind (outer ++ [p]) (left ++ c :: right) rest

section RunBehind

variable {kind : Char → Bool} {before behind outer : List Char} {c p q : Char}

theorem RunBehind.other (maximal : RunBehind kind before c behind outer p) : kind p = false := by
  rcases maximal with ⟨left, right, rest, -, -, run⟩
  exact run.begins p List.getLast?_concat

/-- Where the run begins is settled by what stands before the character. -/
theorem runBehind_iff (here : kind c = true) :
    RunBehind kind before c behind outer p ↔
      kind p = false ∧ ∃ left, before = outer ++ p :: left ∧ ∀ d ∈ left, kind d = true := by
  constructor
  · intro maximal
    have other := maximal.other
    rcases maximal with ⟨left, right, rest, parts, -, run⟩
    refine ⟨other, left, parts, ?_⟩
    exact fun d member => run.of_kind d (List.mem_append_left _ member)
  · rintro ⟨other, left, parts, ofKind⟩
    refine ⟨left, behind.takeWhile kind, behind.dropWhile kind, parts,
      List.takeWhile_append_dropWhile.symm, ?_, ?_, ?_⟩
    · intro d member
      rcases List.mem_append.mp member with inLeft | later
      · exact ofKind d inLeft
      · rcases List.mem_cons.mp later with rfl | inRight
        · exact here
        · exact List.mem_takeWhile_imp inRight
    · intro d last
      rw [List.getLast?_concat] at last
      exact Option.some.inj last ▸ other
    · intro d first
      have stopped := List.head?_dropWhile_not kind behind
      rwa [first] at stopped

/-- A text with one more character is taken apart at that character, or before it. -/
theorem concat_eq_append_cons_iff {left : List Char} :
    before ++ [p] = outer ++ q :: left ↔
      (left = [] ∧ outer = before ∧ q = p) ∨
        ∃ first, left = first ++ [p] ∧ before = outer ++ q :: first := by
  constructor
  · intro parts
    rcases List.eq_nil_or_concat left with rfl | ⟨first, d, rfl⟩
    · rcases List.append_inj' parts rfl with ⟨inFront, ends⟩
      exact Or.inl ⟨rfl, inFront.symm, (List.cons.inj ends).1.symm⟩
    · rw [List.concat_eq_append, ← List.cons_append, ← List.append_assoc] at parts
      rcases List.append_inj' parts rfl with ⟨inFront, ends⟩
      exact Or.inr ⟨first, by rw [List.concat_eq_append, ends], inFront⟩
  · rintro (⟨rfl, rfl, rfl⟩ | ⟨first, rfl, rfl⟩)
    · rfl
    · rw [List.append_assoc, List.cons_append]

/-- A run goes on in front of one more character of the kind. -/
theorem runBehind_concat_of_kind (here : kind c = true) (same : kind p = true) :
    RunBehind kind (before ++ [p]) c behind outer q ↔
      RunBehind kind before p (c :: behind) outer q := by
  rw [runBehind_iff here, runBehind_iff same]
  refine and_congr_right fun other => ⟨?_, ?_⟩
  · rintro ⟨left, parts, ofKind⟩
    rcases concat_eq_append_cons_iff.mp parts with ⟨-, -, rfl⟩ | ⟨first, rfl, inFront⟩
    · rw [same] at other
      cases other
    · exact ⟨first, inFront, fun d member => ofKind d (List.mem_append_left [p] member)⟩
  · rintro ⟨left, inFront, ofKind⟩
    refine ⟨left ++ [p], concat_eq_append_cons_iff.mpr (Or.inr ⟨left, rfl, inFront⟩), ?_⟩
    intro d member
    rcases List.mem_append.mp member with inLeft | last
    · exact ofKind d inLeft
    · exact List.mem_singleton.mp last ▸ same

/-- A run begins behind a character that is not of the kind. -/
theorem runBehind_concat_of_other (here : kind c = true) (other : kind p = false) :
    RunBehind kind (before ++ [p]) c behind outer q ↔ outer = before ∧ q = p := by
  rw [runBehind_iff here]
  constructor
  · rintro ⟨-, left, parts, ofKind⟩
    rcases concat_eq_append_cons_iff.mp parts with ⟨-, begins⟩ | ⟨first, rfl, -⟩
    · exact begins
    · rw [ofKind p (by simp)] at other
      cases other
  · rintro ⟨rfl, rfl⟩
    exact ⟨other, [], rfl, by simp⟩

end RunBehind

/-! ## Masks that pass along a run -/

/-- A flag of the character behind a text, which is handed on along a run and raised by
the character that the run comes behind, is a matter of that character alone. -/
theorem handedOn_iff {kind : Char → Bool} (flag raises : List Char → Char → Bool)
    (nil : ∀ c, flag [] c = false)
    (concat : ∀ before p c, flag (before ++ [p]) c =
      (kind c && if kind p then flag before p else raises before p))
    (before : List Char) (c : Char) (behind : List Char) :
    flag before c = true ↔ kind c = true ∧
      ∃ outer p, RunBehind kind before c behind outer p ∧ raises outer p = true := by
  induction before using List.reverseRecOn generalizing c behind with
  | nil =>
      rw [nil]
      constructor
      · intro raised
        cases raised
      · rintro ⟨-, outer, p, ⟨left, -, -, parts, -⟩, -⟩
        cases outer <;> cases parts
  | append_singleton before p ih =>
      rw [concat, Bool.and_eq_true]
      refine and_congr_right fun here => ?_
      -- The last character is one more of the run, or the one that the run comes behind.
      cases same : kind p with
      | true =>
          rw [if_pos rfl, ih p (c :: behind)]
          simp only [same, true_and, runBehind_concat_of_kind here same]
      | false =>
          rw [if_neg Bool.false_ne_true]
          simp only [runBehind_concat_of_other here same]
          constructor
          · intro raised
            exact ⟨before, p, ⟨rfl, rfl⟩, raised⟩
          · rintro ⟨outer, q, ⟨rfl, rfl⟩, raised⟩
            exact raised

/-! ## What one character hands on -/

section HandedOn

variable {k : GlyphClass} {p : Char}

/-- A symbol hands its mask on to a symbol; of the other characters, a letter masks one. -/
theorem Describes.masksSymbol_eq (describes : k.Describes p) :
    (k.maskedSymbol || k.absorbs) =
      if Glyph.isSymbol [p] then k.maskedSymbol else Glyph.isAsciiLetter p := by
  cases symbol : Glyph.isSymbol [p] with
  | true =>
      cases masked : k.maskedSymbol <;>
        simp [absorbs, plainSymbol, describes.symbol, symbol, masked]
  | false =>
      rw [describes.maskedSymbol_eq_false symbol]
      simp [absorbs, plainSymbol, describes.letter, describes.symbol, symbol]

/-- A digit hands its mask on to a digit; of the other characters, a letter that is no
symbol of its own masks one. -/
theorem Describes.masksDigit_eq (describes : k.Describes p) :
    (k.maskedDigit || k.absorbs) =
      if Glyph.isAsciiDigit p then k.maskedDigit
      else Glyph.isAsciiLetter p && (!Glyph.isSymbol [p] || k.maskedSymbol) := by
  cases digit : Glyph.isAsciiDigit p with
  | true =>
      have notLetter := Glyph.isAsciiLetter_of_isAsciiDigit digit
      simp [absorbs, describes.letter, notLetter]
  | false =>
      rw [describes.maskedDigit_eq_false digit]
      simp [absorbs, plainSymbol, describes.letter, describes.symbol]

end HandedOn

theorem maskedSymbol_after (previous : GlyphClass) (c : Char) :
    (previous.after [c]).maskedSymbol =
      (Glyph.isSymbol [c] && (previous.maskedSymbol || previous.absorbs)) := by
  rw [after_eq_inheriting]
  rfl

theorem maskedDigit_after (previous : GlyphClass) (c : Char) :
    (previous.after [c]).maskedDigit =
      (Glyph.isAsciiDigit c && (previous.maskedDigit || previous.absorbs)) := by
  rw [after_eq_inheriting, ← Glyph.isDigit_singleton]
  rfl

/-! ## The masks of a text -/

theorem maskedSymbol_iff (before : List Char) (c : Char) (behind : List Char) :
    ((neutral.afterAll before).after [c]).maskedSymbol = true ↔ Glyph.isSymbol [c] = true ∧
      ∃ outer p, RunBehind (fun d => Glyph.isSymbol [d]) before c behind outer p ∧
        Glyph.isAsciiLetter p = true := by
  apply handedOn_iff (fun before c => ((neutral.afterAll before).after [c]).maskedSymbol)
    fun _ p => Glyph.isAsciiLetter p
  · intro c
    rw [maskedSymbol_after]
    exact Bool.and_false _
  · intro before p c
    rw [maskedSymbol_after, afterAll_concat, (describes_after _ p).masksSymbol_eq]

theorem maskedDigit_iff (before : List Char) (c : Char) (behind : List Char) :
    ((neutral.afterAll before).after [c]).maskedDigit = true ↔ Glyph.isAsciiDigit c = true ∧
      ∃ outer p, RunBehind Glyph.isAsciiDigit before c behind outer p ∧
        (Glyph.isAsciiLetter p && (!Glyph.isSymbol [p] ||
          ((neutral.afterAll outer).after [p]).maskedSymbol)) = true := by
  apply handedOn_iff (fun before c => ((neutral.afterAll before).after [c]).maskedDigit)
    fun outer p => Glyph.isAsciiLetter p && (!Glyph.isSymbol [p] ||
      ((neutral.afterAll outer).after [p]).maskedSymbol)
  · intro c
    rw [maskedDigit_after]
    exact Bool.and_false _
  · intro before p c
    rw [maskedDigit_after, afterAll_concat, (describes_after _ p).masksDigit_eq]

/-- The class of the character that a run comes behind. -/
theorem RunBehind.getElem?_run {kind : Char → Bool} {before behind outer : List Char} {c p : Char}
    (maximal : RunBehind kind before c behind outer p) :
    (run (glyphs (before ++ c :: behind)))[outer.length]? =
      some ((neutral.afterAll outer).after [p]) := by
  rcases maximal with ⟨left, -, -, rfl, -, -⟩
  rw [List.append_assoc]
  exact Split.getElem?_run outer p (left ++ c :: behind)

/-- Wherever a character stands in a text, its masks are told by runs.  A symbol is masked
exactly if the maximal run of symbols around it comes directly behind a letter that is no
symbol; a digit, exactly if the maximal run of digits around it comes directly behind a
letter that is no symbol or is itself a masked symbol.  No other character is masked. -/
theorem masks_run (before : List Char) (c : Char) (behind : List Char) :
    ∃ k, (run (glyphs (before ++ c :: behind)))[before.length]? = some k ∧
      (k.maskedSymbol = true ↔ Glyph.isSymbol [c] = true ∧
        ∃ outer p, RunBehind (fun d => Glyph.isSymbol [d]) before c behind outer p ∧
          Glyph.isAsciiLetter p = true ∧ Glyph.isSymbol [p] = false) ∧
      (k.maskedDigit = true ↔ Glyph.isAsciiDigit c = true ∧
        ∃ outer p, RunBehind Glyph.isAsciiDigit before c behind outer p ∧
          Glyph.isAsciiLetter p = true ∧ (Glyph.isSymbol [p] = false ∨
            ∃ m, (run (glyphs (before ++ c :: behind)))[outer.length]? = some m ∧
              m.maskedSymbol = true)) := by
  refine ⟨_, getElem?_run before c behind, ?_, ?_⟩
  · rw [maskedSymbol_iff before c behind]
    refine and_congr_right fun _ => exists₂_congr fun outer p => and_congr_right fun maximal => ?_
    exact (and_iff_left maximal.other).symm
  · rw [maskedDigit_iff before c behind]
    refine and_congr_right fun _ => exists₂_congr fun outer p => and_congr_right fun maximal => ?_
    simp [maximal.getElem?_run]

/-- Behind a letter, `π` is masked and so is the symbol behind it.  The digits behind the
masked `e`, which is a letter, are masked, and those behind `π` are not. -/
example : (run (glyphs "aπe12π3".toList)).map (fun k => (k.maskedSymbol, k.maskedDigit)) =
    [(false, false), (true, false), (true, false), (false, true), (false, true),
      (false, false), (false, false)] := by
  decide

end GlyphClass
end FormulaLine

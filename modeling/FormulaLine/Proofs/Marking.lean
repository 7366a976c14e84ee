import FormulaLine.Proofs.Masking
import FormulaLine.Proofs.Substitution

namespace FormulaLine
namespace Split

open GlyphClass

/-!
# Writing the implied multiplications

Joining the tokens of a text by markers gives the text back with markers
inserted: one before each character that starts a factor, where none was
written.  `markAfter` inserts them in one pass, and `Marked` forgets where they
were put.  Nothing else is added, lost or moved, so what the guards look for in
a formula with its markers is found in the formula without them.
-/

/-! ## Steps of the splitter -/

theorem splitAfter_of_starts {policy : SplitPolicy} {previous : GlyphClass} {g : Glyph}
    (starts : startsFactor policy g (previous.after g) previous = true) (rest : List Glyph) :
    splitAfter policy previous (g :: rest) =
      ([], (written g ++ (splitAfter policy (previous.after g) rest).1) ::
        (splitAfter policy (previous.after g) rest).2) := by
  rw [splitAfter]
  simp only [if_pos starts]

theorem splitAfter_of_continues {policy : SplitPolicy} {previous : GlyphClass} {g : Glyph}
    (continues : startsFactor policy g (previous.after g) previous = false) (rest : List Glyph) :
    splitAfter policy previous (g :: rest) =
      (written g ++ (splitAfter policy (previous.after g) rest).1,
        (splitAfter policy (previous.after g) rest).2) := by
  rw [splitAfter]
  simp only [continues, Bool.false_eq_true, if_false]

theorem glyphs_cons (c : Char) (rest : List Char) : glyphs (c :: rest) = [c] :: glyphs rest := rfl

theorem splitGlyphs_cons (policy : SplitPolicy) (c : Char) (rest : List Char) :
    splitGlyphs policy (glyphs (c :: rest)) =
      (c :: (splitAfter policy (first [c]) (glyphs rest)).1) ::
        (splitAfter policy (first [c]) (glyphs rest)).2 := rfl

/-! ## One pass over the text -/

/-- A text that follows a glyph of class `previous`, with a marker before each
character that starts a factor. -/
def markAfter (previous : GlyphClass) : List Char → List Char
  | [] => []
  | c :: rest =>
    let current := previous.after [c]
    if c ≠ Vocabulary.marker ∧ startsFactor .multiplication [c] current previous then
      Vocabulary.marker :: c :: markAfter current rest
    else
      c :: markAfter current rest

theorem markAfter_of_starts {previous : GlyphClass} {c : Char} (other : c ≠ Vocabulary.marker)
    (starts : startsFactor .multiplication [c] (previous.after [c]) previous = true)
    (rest : List Char) :
    markAfter previous (c :: rest) =
      Vocabulary.marker :: c :: markAfter (previous.after [c]) rest := by
  rw [markAfter]
  exact if_pos ⟨other, starts⟩

theorem markAfter_of_continues {previous : GlyphClass} {c : Char}
    (continues : startsFactor .multiplication [c] (previous.after [c]) previous = false)
    (rest : List Char) :
    markAfter previous (c :: rest) = c :: markAfter (previous.after [c]) rest := by
  rw [markAfter]
  exact if_neg (by simp [continues])

theorem markAfter_marker (previous : GlyphClass) (rest : List Char) :
    markAfter previous (Vocabulary.marker :: rest) =
      Vocabulary.marker :: markAfter neutral rest := by
  rw [markAfter, if_neg (by simp), after_marker]

theorem markAfter_neutral (c : Char) (rest : List Char) :
    markAfter neutral (c :: rest) = c :: markAfter (first [c]) rest := by
  by_cases marker : c = Vocabulary.marker
  · subst marker
    exact markAfter_marker neutral rest
  · rw [markAfter_of_continues (startsFactor_neutral _ marker _), neutral_after]

theorem markAfter_append (previous : GlyphClass) (left right : List Char) :
    markAfter previous (left ++ right) =
      markAfter previous left ++ markAfter (previous.afterAll left) right := by
  induction left generalizing previous with
  | nil => rfl
  | cons c left ih =>
      rw [List.cons_append, markAfter, markAfter, afterAll_cons]
      split
      · rw [ih, List.cons_append, List.cons_append]
      · rw [ih, List.cons_append]

theorem intercalate_splitAfter (previous : GlyphClass) (text : List Char) :
    markerGlyph.intercalate ((splitAfter .multiplication previous (glyphs text)).1 ::
      (splitAfter .multiplication previous (glyphs text)).2) = markAfter previous text := by
  induction text generalizing previous with
  | nil => rfl
  | cons c rest ih =>
      rw [glyphs_cons]
      cases starts : startsFactor .multiplication [c] (previous.after [c]) previous with
      | true =>
          rw [splitAfter_of_starts starts]
          by_cases marker : c = Vocabulary.marker
          · subst marker
            rw [markAfter]
            simp [written_marker, markerGlyph, ← ih]
          · rw [markAfter_of_starts marker starts, written_of_ne marker, ← ih]
            simp [markerGlyph]
      | false =>
          have other := ne_marker_of_continues starts
          rw [splitAfter_of_continues starts, markAfter_of_continues starts, written_of_ne other,
            ← ih]
          simp

theorem intercalate_splitGlyphs (text : List Char) :
    markerGlyph.intercalate (splitGlyphs .multiplication (glyphs text)) =
      markAfter neutral text := by
  cases text with
  | nil => rfl
  | cons c rest =>
      rw [splitGlyphs_cons, List.intercalate_cons_cons_left, intercalate_splitAfter,
        markAfter_neutral]

theorem restore_intercalate (tokens : List (List Char)) :
    markerGlyph.intercalate (tokens.map restore) = restore (markerGlyph.intercalate tokens) := by
  induction tokens with
  | nil => rfl
  | cons token tokens ih =>
      cases tokens with
      | nil => simp
      | cons next more =>
          rw [List.map_cons, List.map_cons, List.intercalate_cons_cons,
            List.intercalate_cons_cons, restore_append, restore_append, restore_marker, ← ih,
            List.map_cons]

/-- The formula with its multiplications written is the substituted text with
markers inserted, as it is shown. -/
theorem explicit_eq (text : List Char) :
    explicit text = restore (markAfter neutral (substitute text)) := by
  rw [explicit, split, restore_intercalate, intercalate_splitGlyphs]

theorem explicit_eq_nil_iff (text : List Char) : explicit text = [] ↔ text = [] := by
  rw [explicit_eq, restore_eq_nil_iff, ← substitute_eq_nil_iff text]
  cases substitute text with
  | nil => simp [markAfter]
  | cons c rest => simp [markAfter_neutral]

/-! ## Texts with markers inserted -/

/-- The second text is the first with markers inserted. -/
inductive Marked : List Char → List Char → Prop
  | nil : Marked [] []
  | keep (c : Char) {source target : List Char} :
      Marked source target → Marked (c :: source) (c :: target)
  | insert {source target : List Char} :
      Marked source target → Marked source (Vocabulary.marker :: target)

namespace Marked

variable {source target : List Char}

theorem append_left (marked : Marked source target) (common : List Char) :
    Marked (common ++ source) (common ++ target) := by
  induction common with
  | nil => exact marked
  | cons c common ih => exact .keep c ih

theorem restore (marked : Marked source target) :
    Marked (restore source) (restore target) := by
  induction marked with
  | nil => exact .nil
  | keep c _ ih =>
      rw [restore_cons, restore_cons]
      exact ih.append_left (shown c)
  | insert _ ih =>
      rw [restore_cons, shown_marker, List.singleton_append]
      exact .insert ih

theorem mem (marked : Marked source target) {c : Char} (member : c ∈ target) :
    c ∈ source ∨ c = Vocabulary.marker := by
  induction marked with
  | nil => exact Or.inl member
  | keep d _ ih =>
      rcases List.mem_cons.mp member with same | later
      · exact Or.inl (List.mem_cons.mpr (Or.inl same))
      · rcases ih later with old | marker
        · exact Or.inl (List.mem_cons_of_mem d old)
        · exact Or.inr marker
  | insert _ ih =>
      rcases List.mem_cons.mp member with marker | later
      · exact Or.inr marker
      · exact ih later

theorem prefix_source (marked : Marked source target) {part : List Char}
    (free : Vocabulary.marker ∉ part) (found : part <+: target) : part <+: source := by
  induction marked generalizing part with
  | nil => exact found
  | keep c _ ih =>
      exact Text.prefix_cons_of_prefix_cons
        (fun more inPart => ih (fun member => free (inPart member))) found
  | insert _ _ =>
      rw [Text.eq_nil_of_prefix_cons free found]
      exact List.nil_prefix

/-- What stands together in a marked text, and holds no marker, stood together
before. -/
theorem infix_source (marked : Marked source target) {part : List Char}
    (free : Vocabulary.marker ∉ part) (found : part <:+: target) : part <:+: source := by
  induction marked with
  | nil => exact found
  | keep c marked ih =>
      rcases List.infix_cons_iff.mp found with here | later
      · exact ((Marked.keep c marked).prefix_source free here).isInfix
      · exact List.infix_cons (ih later)
  | insert marked ih =>
      rcases List.infix_cons_iff.mp found with here | later
      · exact ((Marked.insert marked).prefix_source free here).isInfix
      · exact ih later

theorem filter_eq (marked : Marked source target) {keep : Char → Bool}
    (drops : keep Vocabulary.marker = false) : target.filter keep = source.filter keep := by
  induction marked with
  | nil => rfl
  | keep c _ ih => rw [List.filter_cons, List.filter_cons, ih]
  | insert _ ih => rw [List.filter_cons, drops, if_neg Bool.false_ne_true, ih]

end Marked

theorem marked_markAfter (previous : GlyphClass) (text : List Char) :
    Marked text (markAfter previous text) := by
  induction text generalizing previous with
  | nil => exact .nil
  | cons c rest ih =>
      rw [markAfter]
      split
      · exact .insert (.keep c (ih _))
      · exact .keep c (ih _)

/-- A formula with its multiplications written is the condensed text with
markers inserted. -/
theorem marked_explicit {text : List Char} (free : Vocabulary.expPlaceholder ∉ text) :
    Marked (condense text) (explicit text) := by
  rw [explicit_eq, ← restore_substitute free]
  exact (marked_markAfter neutral _).restore

/-- The characters that a formula may gain as its multiplications are written. -/
def inserted : List Char :=
  ['π', '^', Vocabulary.marker]

theorem mem_inserted_iff {c : Char} :
    c ∈ inserted ↔ c = 'π' ∨ c = '^' ∨ c = Vocabulary.marker := by
  simp [inserted]

theorem mem_explicit {text : List Char} (free : Vocabulary.expPlaceholder ∉ text) {c : Char}
    (member : c ∈ explicit text) : c ∈ text ∨ c ∈ inserted := by
  rw [mem_inserted_iff]
  rcases (marked_explicit free).mem member with condensed | marker
  · rcases mem_condense condensed with typed | constant | power
    · exact Or.inl typed
    · exact Or.inr (Or.inl constant)
    · exact Or.inr (Or.inr (Or.inl power))
  · exact Or.inr (Or.inr (Or.inr marker))

/-- What stands together in the written formula stood together as it was typed,
unless an inserted character is part of it. -/
theorem infix_of_infix_explicit {part text : List Char} (free : Vocabulary.expPlaceholder ∉ text)
    (disjoint : ∀ c ∈ inserted, c ∉ part) (found : part <:+: explicit text) : part <:+: text := by
  have markers : Vocabulary.marker ∉ part := disjoint _ (mem_inserted_iff.mpr (by simp))
  have constants : 'π' ∉ part := disjoint _ (mem_inserted_iff.mpr (by simp))
  have powers : '^' ∉ part := disjoint _ (mem_inserted_iff.mpr (by simp))
  have condensed := (marked_explicit free).infix_source markers found
  exact infix_of_infix_condense constants powers condensed

/-! ## Markers stay apart -/

theorem power_prefix_cons_iff {c : Char} {rest : List Char} :
    "**".toList <+: c :: rest ↔ c = Vocabulary.marker ∧ rest.head? = some Vocabulary.marker := by
  have spelled : "**".toList = [Vocabulary.marker, Vocabulary.marker] := by decide
  rw [spelled, List.cons_prefix_cons]
  cases rest with
  | nil => simp
  | cons d more => simp [eq_comm]

theorem head?_markAfter_neutral (text : List Char) :
    (markAfter neutral text).head? = text.head? := by
  cases text with
  | nil => rfl
  | cons c rest => rw [markAfter_neutral, List.head?_cons, List.head?_cons]

/-- No marker is inserted next to a marker. -/
theorem power_not_infix_markAfter {text : List Char} (single : ¬ "**".toList <:+: text)
    (previous : GlyphClass) : ¬ "**".toList <:+: markAfter previous text := by
  induction text generalizing previous with
  | nil => exact single
  | cons c rest ih =>
      have singleLater : ¬ "**".toList <:+: rest :=
        fun later => single (List.infix_cons later)
      by_cases marker : c = Vocabulary.marker
      · subst marker
        rw [markAfter_marker]
        intro found
        rcases List.infix_cons_iff.mp found with here | later
        · have doubled := (power_prefix_cons_iff.mp here).2
          rw [head?_markAfter_neutral] at doubled
          exact single (power_prefix_cons_iff.mpr ⟨rfl, doubled⟩).isInfix
        · exact ih singleLater neutral later
      · have behind : ¬ "**".toList <:+: c :: markAfter (previous.after [c]) rest := by
          intro found
          rcases List.infix_cons_iff.mp found with here | later
          · exact marker (power_prefix_cons_iff.mp here).1
          · exact ih singleLater _ later
        rw [markAfter]
        split
        · intro found
          rcases List.infix_cons_iff.mp found with here | later
          · exact marker (Option.some.inj (power_prefix_cons_iff.mp here).2)
          · exact behind later
        · exact behind

end Split
end FormulaLine

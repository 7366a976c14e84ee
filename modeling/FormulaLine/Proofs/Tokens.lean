import FormulaLine.Proofs.Marking

namespace FormulaLine
namespace Split

open GlyphClass

/-!
# The tokens of a text

Put together, the tokens are the substituted text without its markers.  A marker
opens a token and is dropped, except that the first character of a text is kept
whatever it is.  No two markers stand together in a substituted text, and behind
a marker nothing but a marker opens a token; therefore a token is empty only
where a marker ends the text.
-/

/-- Behind a marker the open token takes the next character in. -/
theorem splitAfter_neutral_ne_nil (policy : SplitPolicy) {c : Char}
    (other : c ≠ Vocabulary.marker) (rest : List Char) :
    (splitAfter policy neutral (glyphs (c :: rest))).1 ≠ [] := by
  rw [glyphs_cons, splitAfter_of_continues (startsFactor_neutral policy other _),
    written_of_ne other]
  exact List.cons_ne_nil c _

/-- Put together, the tokens are the text without its markers. -/
theorem flatten_splitAfter (policy : SplitPolicy) (previous : GlyphClass) (text : List Char) :
    (splitAfter policy previous (glyphs text)).1 ++
        (splitAfter policy previous (glyphs text)).2.flatten =
      text.filter (· ≠ Vocabulary.marker) := by
  induction text generalizing previous with
  | nil => rfl
  | cons c rest ih =>
      have shownHere : written [c] ++ rest.filter (· ≠ Vocabulary.marker) =
          (c :: rest).filter (· ≠ Vocabulary.marker) := by
        by_cases marker : c = Vocabulary.marker
        · subst marker
          rw [written_marker, List.filter_cons]
          simp
        · rw [written_of_ne marker, List.filter_cons]
          simp [marker]
      rw [glyphs_cons, ← shownHere, ← ih (previous.after [c])]
      cases starts : startsFactor policy [c] (previous.after [c]) previous with
      | true =>
          rw [splitAfter_of_starts starts]
          simp
      | false =>
          rw [splitAfter_of_continues starts]
          simp

/-- A token that a character opens is empty only if the character is a marker at
the end. -/
theorem opened_eq_nil_iff (policy : SplitPolicy) (previous : GlyphClass) {c : Char}
    {rest : List Char} (single : ¬ "**".toList <:+: c :: rest) :
    written [c] ++ (splitAfter policy (previous.after [c]) (glyphs rest)).1 = [] ↔
      c = Vocabulary.marker ∧ rest = [] := by
  by_cases marker : c = Vocabulary.marker
  · subst marker
    rw [written_marker, List.nil_append, after_marker]
    cases rest with
    | nil => simp [glyphs, splitAfter]
    | cons d more =>
        have other : d ≠ Vocabulary.marker := by
          rintro rfl
          exact single (power_prefix_cons_iff.mpr ⟨rfl, rfl⟩).isInfix
        simp [splitAfter_neutral_ne_nil policy other more]
  · rw [written_of_ne marker]
    simp [marker]

theorem splitAfter_dropLast_ne_nil (policy : SplitPolicy) (previous : GlyphClass)
    {text : List Char} (single : ¬ "**".toList <:+: text) :
    ∀ token ∈ (splitAfter policy previous (glyphs text)).2.dropLast, token ≠ [] := by
  induction text generalizing previous with
  | nil => simp [glyphs, splitAfter]
  | cons c rest ih =>
      have singleLater : ¬ "**".toList <:+: rest :=
        fun later => single (List.infix_cons later)
      have later := ih (previous.after [c]) singleLater
      have opened := opened_eq_nil_iff policy previous single
      rw [glyphs_cons]
      cases starts : startsFactor policy [c] (previous.after [c]) previous with
      | false =>
          rw [splitAfter_of_continues starts]
          exact later
      | true =>
          rw [splitAfter_of_starts starts]
          intro token member
          cases tokens : (splitAfter policy (previous.after [c]) (glyphs rest)).2 with
          | nil => simp [tokens] at member
          | cons next more =>
              rw [tokens] at later
              simp only [tokens, List.dropLast_cons_cons, List.mem_cons] at member
              rcases member with same | old
              · rw [same, Ne, opened]
                rintro ⟨-, rfl⟩
                simp [glyphs, splitAfter] at tokens
              · exact later token old

theorem splitAfter_getLast?_eq_nil_iff (policy : SplitPolicy) (previous : GlyphClass)
    {text : List Char} (single : ¬ "**".toList <:+: text) :
    (splitAfter policy previous (glyphs text)).2.getLast? = some [] ↔
      text.getLast? = some Vocabulary.marker := by
  induction text generalizing previous with
  | nil => simp [glyphs, splitAfter]
  | cons c rest ih =>
      have singleLater : ¬ "**".toList <:+: rest :=
        fun later => single (List.infix_cons later)
      have later := ih (previous.after [c]) singleLater
      have opened := opened_eq_nil_iff policy previous single
      rw [glyphs_cons]
      cases starts : startsFactor policy [c] (previous.after [c]) previous with
      | false =>
          have other := ne_marker_of_continues starts
          rw [splitAfter_of_continues starts, later]
          cases rest with
          | nil => simp [other]
          | cons d more => rw [List.getLast?_cons_cons]
      | true =>
          rw [splitAfter_of_starts starts]
          cases rest with
          | nil => simpa [glyphs, splitAfter] using opened
          | cons d more =>
              rw [List.getLast?_cons_cons, ← later]
              cases tokens : (splitAfter policy (previous.after [c]) (glyphs (d :: more))).2 with
              | nil => simpa using opened
              | cons next others => rw [List.getLast?_cons_cons]

/-! ## The tokens of a formula -/

/-- A text without its markers, except for one at its start. -/
def withoutMarkers : List Char → List Char
  | [] => []
  | c :: rest => c :: rest.filter (· ≠ Vocabulary.marker)

/-- The tokens of the substituted text `source`. -/
structure Tokenizes (source : List Char) (tokens : List (List Char)) : Prop where
  /-- No character but a marker is lost, and none is doubled or moved. -/
  flatten_eq : tokens.flatten = (withoutMarkers source).flatMap shown
  dropLast_ne_nil : ∀ token ∈ tokens.dropLast, token ≠ []
  getLast?_eq_nil_iff : tokens.getLast? = some [] ↔
    2 ≤ source.length ∧ source.getLast? = some Vocabulary.marker
  /-- The only marker in a token is the one at the start of the text. -/
  marker_iff : ∀ i j, tokens[i]?.bind (·[j]?) = some Vocabulary.marker ↔
    i = 0 ∧ j = 0 ∧ source.head? = some Vocabulary.marker

theorem flatten_split (policy : SplitPolicy) (text : List Char) :
    (split policy text).flatten = (withoutMarkers (substitute text)).flatMap shown := by
  rw [split, restore_flatten, restore_eq_flatMap]
  cases substitute text with
  | nil => rfl
  | cons c rest => rw [splitGlyphs_cons, List.flatten_cons, List.cons_append, flatten_splitAfter,
      withoutMarkers]

theorem split_dropLast_ne_nil (policy : SplitPolicy) (text : List Char) :
    ∀ token ∈ (split policy text).dropLast, token ≠ [] := by
  have single := power_not_infix_substitute text
  rw [split, ← List.map_dropLast]
  intro token member
  rcases List.mem_map.mp member with ⟨raw, inRaw, rfl⟩
  rw [Ne, restore_eq_nil_iff]
  cases source : substitute text with
  | nil => simp [source, glyphs, splitGlyphs] at inRaw
  | cons c rest =>
      have singleLater : ¬ "**".toList <:+: rest :=
        fun later => single (source ▸ List.infix_cons later)
      have later := splitAfter_dropLast_ne_nil policy (first [c]) singleLater
      rw [source, splitGlyphs_cons] at inRaw
      cases tokens : (splitAfter policy (first [c]) (glyphs rest)).2 with
      | nil => simp [tokens] at inRaw
      | cons next more =>
          rw [tokens] at later inRaw
          rw [List.dropLast_cons_cons, List.mem_cons] at inRaw
          rcases inRaw with same | old
          · rw [same]
            exact List.cons_ne_nil c _
          · exact later raw old

theorem split_getLast?_eq_nil_iff (policy : SplitPolicy) (text : List Char) :
    (split policy text).getLast? = some [] ↔
      2 ≤ (substitute text).length ∧ (substitute text).getLast? = some Vocabulary.marker := by
  have single := power_not_infix_substitute text
  have shownEmpty : (split policy text).getLast? = some [] ↔
      (splitGlyphs policy (glyphs (substitute text))).getLast? = some [] := by
    rw [split, List.getLast?_map, Option.map_eq_some_iff]
    simp [restore_eq_nil_iff]
  rw [shownEmpty]
  cases source : substitute text with
  | nil => simp [glyphs, splitGlyphs]
  | cons c rest =>
      have singleLater : ¬ "**".toList <:+: rest :=
        fun later => single (source ▸ List.infix_cons later)
      have later := splitAfter_getLast?_eq_nil_iff policy (first [c]) singleLater
      rw [splitGlyphs_cons]
      cases rest with
      | nil => simp [glyphs, splitAfter]
      | cons d more =>
          cases tokens : (splitAfter policy (first [c]) (glyphs (d :: more))).2 with
          | nil =>
              rw [tokens] at later
              simpa [List.getLast?_cons_cons] using later
          | cons next others =>
              rw [tokens] at later
              rw [List.getLast?_cons_cons, later, List.getLast?_cons_cons]
              simp

theorem marker_not_mem_splitAfter (policy : SplitPolicy) (previous : GlyphClass)
    (text : List Char) :
    Vocabulary.marker ∉ (splitAfter policy previous (glyphs text)).1 ∧
      ∀ token ∈ (splitAfter policy previous (glyphs text)).2, Vocabulary.marker ∉ token := by
  have free : Vocabulary.marker ∉ (splitAfter policy previous (glyphs text)).1 ++
      (splitAfter policy previous (glyphs text)).2.flatten := by
    rw [flatten_splitAfter]
    simp
  constructor
  · exact fun member => free (List.mem_append_left _ member)
  · intro token inTokens member
    exact free (List.mem_append_right _ (List.mem_flatten.mpr ⟨token, inTokens, member⟩))

theorem marker_not_mem_restore {token : List Char} (free : Vocabulary.marker ∉ token) :
    Vocabulary.marker ∉ restore token := by
  intro member
  rcases mem_restore member with old | letter
  · exact free old
  · exact absurd letter (by decide)

theorem split_marker_iff (policy : SplitPolicy) (text : List Char) (i j : Nat) :
    (split policy text)[i]?.bind (·[j]?) = some Vocabulary.marker ↔
      i = 0 ∧ j = 0 ∧ (substitute text).head? = some Vocabulary.marker := by
  rw [split]
  cases substitute text with
  | nil => simp [glyphs, splitGlyphs]
  | cons c rest =>
      rcases marker_not_mem_splitAfter policy (first [c]) rest with ⟨bodyFree, tokensFree⟩
      rw [splitGlyphs_cons, List.map_cons]
      cases i with
      | succ i =>
          simp only [List.getElem?_cons_succ, List.getElem?_map, Nat.succ_ne_zero, false_and,
            iff_false]
          intro found
          rcases Option.bind_eq_some_iff.mp found with ⟨token, atIndex, inToken⟩
          rcases Option.map_eq_some_iff.mp atIndex with ⟨raw, inRaw, rfl⟩
          exact marker_not_mem_restore (tokensFree raw (List.mem_of_getElem? inRaw))
            (List.mem_of_getElem? inToken)
      | zero =>
          rw [List.getElem?_cons_zero, Option.bind_some, List.head?_cons]
          by_cases marker : c = Vocabulary.marker
          · subst marker
            rw [restore_cons, shown_marker, List.singleton_append]
            cases j with
            | zero => simp
            | succ j =>
                simp only [List.getElem?_cons_succ, Nat.succ_ne_zero, false_and, and_false,
                  iff_false]
                exact fun found => marker_not_mem_restore bodyFree (List.mem_of_getElem? found)
          · have free : Vocabulary.marker ∉ c :: (splitAfter policy (first [c]) (glyphs rest)).1 := by
              rw [List.mem_cons, not_or]
              exact ⟨fun same => marker same.symm, bodyFree⟩
            constructor
            · exact fun found => absurd (List.mem_of_getElem? found) (marker_not_mem_restore free)
            · rintro ⟨-, -, same⟩
              exact absurd (Option.some.inj same) marker

theorem split_eq_nil_iff (policy : SplitPolicy) (text : List Char) :
    split policy text = [] ↔ text = [] := by
  rw [← substitute_eq_nil_iff text, split, List.map_eq_nil_iff]
  cases substitute text with
  | nil => simp [glyphs, splitGlyphs]
  | cons c rest => simp [splitGlyphs_cons]

theorem split_ne_nil (policy : SplitPolicy) {text : List Char} (nonempty : text ≠ []) :
    split policy text ≠ [] :=
  fun none => nonempty ((split_eq_nil_iff policy text).mp none)

/-- The tokens of a text under either policy.  Only the empty text has none. -/
theorem split_tokenizes (policy : SplitPolicy) (text : List Char) :
    (split policy text = [] ↔ text = []) ∧ Tokenizes (substitute text) (split policy text) where
  left := split_eq_nil_iff policy text
  right := {
    flatten_eq := flatten_split policy text
    dropLast_ne_nil := split_dropLast_ne_nil policy text
    getLast?_eq_nil_iff := split_getLast?_eq_nil_iff policy text
    marker_iff := split_marker_iff policy text }

end Split
end FormulaLine

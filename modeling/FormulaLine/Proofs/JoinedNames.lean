import FormulaLine.Proofs.Suggesting
import FormulaLine.Proofs.TermPolicy

namespace FormulaLine

/-!
# Names written back to back

Names of functions with nothing between them are one name to the splitter, and an
unknown one.  The last character of a name is a letter that is no symbol, a masked
digit, or the placeholder for `exp`, and behind each of these only a marker starts a
factor (`Idle`).  The first character of a name is neither a digit nor a symbol.  It
takes over no mask, so that every name is read as it is at the start of a text.

No spelling comes up where two names meet, since no name begins with a character that
finishes one.  And no supported name begins with two names: one that begins with another
name, as `sinh` does, has just one letter more.
-/

namespace Split

open GlyphClass

/-! ## Between two names -/

/-- A class behind which only a marker starts a factor. -/
structure Idle (k : GlyphClass) : Prop where
  closed : k.closeParen = false
  digit : k.plainDigit = false
  symbol : k.plainSymbol = false

theorem idle_neutral : Idle neutral :=
  ⟨rfl, rfl, rfl⟩

/-- A name stays together behind its first character, and leaves an idle class. -/
theorem substitute_spelling_parts (f : Builtin) :
    ∃ c rest, substitute f.spelling = c :: rest ∧ c ≠ Vocabulary.marker ∧
      Glyph.isAsciiDigit c = false ∧ Glyph.isSymbol [c] = false ∧
      Stays (first [c]) rest ∧ Idle ((first [c]).afterAll rest) := by
  cases f <;> exact ⟨_, _, rfl, by decide, by decide, by decide, by decide,
    by decide, by decide, by decide⟩

/-- Behind an idle class a name goes into the open token, and leaves an idle class. -/
theorem Idle.name {k : GlyphClass} (idle : Idle k) (f : Builtin) :
    Stays k (substitute f.spelling) ∧ Idle (k.afterAll (substitute f.spelling)) := by
  rcases substitute_spelling_parts f with ⟨c, rest, parts, other, notDigit, notSymbol, stays, ends⟩
  have continues := startsFactor_eq_false_of_idle other idle.closed idle.digit idle.symbol
  have current : k.after [c] = first [c] := after_eq_first_of_other k notDigit notSymbol
  rw [parts, stays_cons_iff, afterAll_cons]
  exact ⟨⟨continues, current ▸ stays⟩, current ▸ ends⟩

theorem Idle.names {k : GlyphClass} (idle : Idle k) (names : List Builtin) :
    Stays k (names.flatMap fun f => substitute f.spelling) := by
  induction names generalizing k with
  | nil => exact stays_nil k
  | cons f names ih =>
      rcases idle.name f with ⟨stays, ends⟩
      exact (stays_append_iff k _ _).mpr ⟨stays, ih ends⟩

/-! ## The names as they are typed -/

/-- The names with nothing between them. -/
def backToBack (names : List Builtin) : List Char :=
  names.flatMap Builtin.spelling

theorem backToBack_cons (f : Builtin) (names : List Builtin) :
    backToBack (f :: names) = f.spelling ++ backToBack names :=
  List.flatMap_cons

theorem backToBack_ne_nil {names : List Builtin} (nonempty : names ≠ []) :
    backToBack names ≠ [] := by
  rcases List.exists_cons_of_ne_nil nonempty with ⟨f, others, rfl⟩
  rcases exists_spelling_cons f with ⟨c, rest, name, -⟩
  rw [backToBack_cons, name]
  exact List.cons_ne_nil c _

theorem opening_not_mem_backToBack (names : List Builtin) : '(' ∉ backToBack names := by
  intro member
  rcases List.mem_flatMap.mp member with ⟨f, -, inName⟩
  exact opening_not_mem_spelling f inName

theorem not_prefix_backToBack (names : List Builtin) :
    ∀ c ∈ finishing, ¬ [c] <+: backToBack names := by
  cases names with
  | nil => exact fun c _ found => List.cons_ne_nil c [] (List.prefix_nil.mp found)
  | cons f names =>
      rcases exists_spelling_cons f with ⟨c, rest, name, other⟩
      rw [backToBack_cons, name]
      exact not_prefix_of_not_mem_finishing other

theorem substitute_backToBack (names : List Builtin) :
    substitute (backToBack names) = names.flatMap fun f => substitute f.spelling := by
  induction names with
  | nil => rfl
  | cons f names ih =>
      rw [backToBack_cons, substitute_append (not_prefix_backToBack names), ih, List.flatMap_cons]

theorem restore_substitute_backToBack (names : List Builtin) :
    restore (substitute (backToBack names)) = backToBack names := by
  rw [substitute_backToBack]
  induction names with
  | nil => rfl
  | cons f names ih =>
      rw [List.flatMap_cons, restore_append, restore_substitute_spelling, ih, backToBack_cons]

theorem split_backToBack {names : List Builtin} (nonempty : names ≠ []) (policy : SplitPolicy) :
    split policy (backToBack names) = [backToBack names] := by
  have sourceNonempty : substitute (backToBack names) ≠ [] := fun none =>
    backToBack_ne_nil nonempty ((substitute_eq_nil_iff _).mp none)
  have stays : Stays neutral (substitute (backToBack names)) := by
    rw [substitute_backToBack]
    exact idle_neutral.names names
  have coarse : split .multiplication (backToBack names) = [backToBack names] := by
    rw [split, splitGlyphs_of_stays sourceNonempty stays, List.map_singleton,
      restore_substitute_backToBack]
  cases policy with
  | multiplication => exact coarse
  | term =>
      rw [split_term, coarse, List.flatMap_singleton,
        pieces_of_not_mem (opening_not_mem_backToBack names)]

end Split

namespace Suggest

open Split

/-! ## Names that begin alike -/

/-- A name that begins with another name has at most one letter more. -/
theorem length_spelling_le {f g : Builtin} (begins : f.spelling <+: g.spelling) :
    g.spelling.length ≤ f.spelling.length + 1 := by
  have each : ∀ f ∈ Builtin.all, ∀ g ∈ Builtin.all, f.spelling <+: g.spelling →
      g.spelling.length ≤ f.spelling.length + 1 := by
    decide +kernel
  exact each f f.mem_all g g.mem_all begins

theorem two_le_length_spelling (f : Builtin) : 2 ≤ f.spelling.length := by
  cases f <;> decide

/-- No name begins with two names. -/
theorem not_prefix_spelling (f g : Builtin) (names : List Builtin) (h : Builtin) :
    ¬ backToBack (f :: g :: names) <+: h.spelling := by
  intro begins
  have short := length_spelling_le ((List.prefix_append _ _).trans (backToBack_cons f _ ▸ begins))
  have long := begins.length_le
  have second := two_le_length_spelling g
  rw [backToBack_cons, backToBack_cons, List.length_append, List.length_append] at long
  omega

theorem completionOf?_eq_none {typed : List Char}
    (unknown : ∀ name ∈ Vocabulary.functions, ¬ typed <+: name) : completionOf? typed = none := by
  rw [completionOf?]
  split
  · rfl
  · cases found : CompletionTable.standard.get? typed with
    | none => rfl
    | some entry =>
        rcases Completion.prefix_of_get?_standard found with ⟨-, name, supported, begins⟩
        exact absurd begins (unknown name supported)

theorem hint_backToBack (f g : Builtin) (names : List Builtin) :
    hint (backToBack (f :: g :: names)) = .none := by
  have closed : (backToBack (f :: g :: names)).count '(' ≤
      (backToBack (f :: g :: names)).count ')' := by
    rw [List.count_eq_zero_of_not_mem (opening_not_mem_backToBack _)]
    exact Nat.zero_le _
  have last : (split .multiplication (backToBack (f :: g :: names))).getLast? =
      some (backToBack (f :: g :: names)) := by
    rw [split_backToBack (List.cons_ne_nil f _)]
    rfl
  have unknown : ∀ name ∈ Vocabulary.functions, ¬ backToBack (f :: g :: names) <+: name := by
    intro name supported
    rcases List.mem_map.mp supported with ⟨h, -, rfl⟩
    exact not_prefix_spelling f g names h
  rw [hint_of_getLast? closed last, completionOf?_eq_none unknown]
  rfl

/-- Names written back to back are one token under either policy.  Two or more of them
are the beginning of no supported name, and are completed to nothing. -/
theorem names_whole {names : List Builtin} (nonempty : names ≠ []) :
    (∀ policy, split policy (backToBack names) = [backToBack names]) ∧
      (2 ≤ names.length → hint (backToBack names) = .none) := by
  refine ⟨split_backToBack nonempty, ?_⟩
  intro several
  match names, several with
  | f :: g :: others, _ => exact hint_backToBack f g others

theorem names_whole_of_seams :
    let names : List Builtin := [.log10, .exp, .ceil, .exp, .exp, .sin, .sinh]
    names ≠ [] ∧ (∀ policy, split policy (backToBack names) = [backToBack names]) ∧
      2 ≤ names.length ∧ hint (backToBack names) = .none := by
  have nonempty : [Builtin.log10, .exp, .ceil, .exp, .exp, .sin, .sinh] ≠ [] :=
    List.cons_ne_nil _ _
  rcases names_whole nonempty with ⟨whole, unknown⟩
  exact ⟨nonempty, whole, by decide, unknown (by decide)⟩

end Suggest
end FormulaLine

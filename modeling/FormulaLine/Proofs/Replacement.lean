import FormulaLine.Text.Replace
import Mathlib.Data.List.Infix

namespace FormulaLine
namespace Text

/-!
# Laws of replacement

A scan either finds the pattern and passes over it, or keeps one character.
`replaceAll_induction` is induction along these steps; the other laws follow it.

The laws fall into three groups.  Replacement respects concatenation where no
occurrence lies across the seam.  Replacement by a single new character leaves
no occurrence of the pattern, and brings no text together that was apart.  And a
single new character can be spelled out again and read back.
-/

/-! ## Parts at the start of a text -/

/-- A part that lacks the first character of a text stands at its start only if
it is empty. -/
theorem eq_nil_of_prefix_cons {part rest : List Char} {c : Char} (free : c ∉ part)
    (found : part <+: c :: rest) : part = [] := by
  cases part with
  | nil => rfl
  | cons d more =>
      have same := (List.cons_prefix_cons.mp found).1
      exact absurd (same ▸ List.mem_cons_self) free

/-- A part stays at the start of a text if what is behind its first character
stays. -/
theorem prefix_cons_of_prefix_cons {part rest other : List Char} {c : Char}
    (later : ∀ more, more ⊆ part → more <+: rest → more <+: other)
    (found : part <+: c :: rest) : part <+: c :: other := by
  cases part with
  | nil => exact List.nil_prefix
  | cons d more =>
      rcases List.cons_prefix_cons.mp found with ⟨same, behind⟩
      exact List.cons_prefix_cons.mpr ⟨same, later more (List.subset_cons_self d more) behind⟩

/-- What shares no character with a text stands behind it as a whole. -/
theorem infix_of_infix_append {part left right : List Char} (disjoint : ∀ c ∈ left, c ∉ part)
    (found : part <:+: left ++ right) : part <:+: right := by
  induction left with
  | nil => exact found
  | cons c left ih =>
      rcases List.infix_cons_iff.mp found with here | later
      · rw [eq_nil_of_prefix_cons (disjoint c List.mem_cons_self) here]
        exact List.nil_infix
      · exact ih (fun d member => disjoint d (List.mem_cons_of_mem c member)) later

section Scan

variable {pattern replacement : List Char}

theorem replaceScan_eq (skip : Nat) (text : List Char) :
    replaceScan pattern replacement skip text =
      replaceAll pattern replacement (text.drop skip) := by
  induction text generalizing skip with
  | nil => simp [replaceAll, replaceScan]
  | cons c rest ih =>
      cases skip with
      | zero => rfl
      | succ skip => simpa [replaceScan] using ih skip

@[simp] theorem replaceAll_nil : replaceAll pattern replacement [] = [] := rfl

theorem replaceAll_occurrence (nonempty : pattern ≠ []) (rest : List Char) :
    replaceAll pattern replacement (pattern ++ rest) =
      replacement ++ replaceAll pattern replacement rest := by
  cases pattern with
  | nil => exact absurd rfl nonempty
  | cons first others =>
      have found : (first :: others).isPrefixOf (first :: (others ++ rest)) = true :=
        List.isPrefixOf_iff_prefix.mpr (List.prefix_append _ rest)
      rw [List.cons_append, replaceAll, replaceScan, if_pos found, replaceScan_eq]
      simp

theorem replaceAll_kept {c : Char} {rest : List Char} (absent : ¬ pattern <+: c :: rest) :
    replaceAll pattern replacement (c :: rest) =
      c :: replaceAll pattern replacement rest := by
  rw [replaceAll, replaceScan, if_neg (fun found => absent (List.isPrefixOf_iff_prefix.mp found))]
  rfl

/-- Induction along the steps of a scan for the pattern. -/
theorem replaceAll_induction {motive : List Char → Prop} (nonempty : pattern ≠ [])
    (nil : motive [])
    (occurrence : ∀ rest, motive rest → motive (pattern ++ rest))
    (kept : ∀ c rest, ¬ pattern <+: c :: rest → motive rest → motive (c :: rest))
    (text : List Char) : motive text := by
  induction bound : text.length using Nat.strong_induction_on generalizing text with
  | h size ih =>
      cases text with
      | nil => exact nil
      | cons c rest =>
          by_cases found : pattern <+: c :: rest
          · rcases found with ⟨after, split⟩
            have shorter : after.length < size := by
              have := List.length_pos_iff.mpr nonempty
              rw [← bound, ← split, List.length_append]
              omega
            exact split ▸ occurrence after (ih _ shorter after rfl)
          · exact kept c rest found (ih rest.length (by simp [← bound]) rest rfl)

theorem replaceAll_eq_nil_iff (patternNonempty : pattern ≠ []) (nonempty : replacement ≠ [])
    (text : List Char) : replaceAll pattern replacement text = [] ↔ text = [] := by
  induction text using replaceAll_induction patternNonempty with
  | nil => simp
  | occurrence rest _ =>
      rw [replaceAll_occurrence patternNonempty]
      simp [nonempty, patternNonempty]
  | kept c rest absent _ =>
      rw [replaceAll_kept absent]
      simp

theorem mem_replaceAll (nonempty : pattern ≠ []) {c : Char} {text : List Char}
    (member : c ∈ replaceAll pattern replacement text) : c ∈ text ∨ c ∈ replacement := by
  induction text using replaceAll_induction nonempty with
  | nil => simp at member
  | occurrence rest ih =>
      rw [replaceAll_occurrence nonempty, List.mem_append] at member
      rcases member with new | old
      · exact Or.inr new
      · rcases ih old with inRest | new
        · exact Or.inl (List.mem_append_right _ inRest)
        · exact Or.inr new
  | kept d rest absent ih =>
      rw [replaceAll_kept absent, List.mem_cons] at member
      rcases member with same | old
      · exact Or.inl (List.mem_cons.mpr (Or.inl same))
      · rcases ih old with inRest | new
        · exact Or.inl (List.mem_cons_of_mem _ inRest)
        · exact Or.inr new

theorem filter_replaceAll (nonempty : pattern ≠ []) {keep : Char → Bool}
    (dropped : pattern.filter keep = []) (droppedNew : replacement.filter keep = [])
    (text : List Char) : (replaceAll pattern replacement text).filter keep = text.filter keep := by
  induction text using replaceAll_induction nonempty with
  | nil => rfl
  | occurrence rest ih =>
      rw [replaceAll_occurrence nonempty, List.filter_append, List.filter_append, dropped,
        droppedNew, ih]
  | kept c rest absent ih =>
      rw [replaceAll_kept absent, List.filter_cons, List.filter_cons, ih]

/-- A text without the pattern stays as it is. -/
theorem replaceAll_eq_self {text : List Char} (nonempty : pattern ≠ [])
    (absent : ¬ pattern <:+: text) : replaceAll pattern replacement text = text := by
  induction text using replaceAll_induction nonempty with
  | nil => rfl
  | occurrence rest _ => exact absurd (List.prefix_append pattern rest).isInfix absent
  | kept c rest notHere ih =>
      rw [replaceAll_kept notHere, ih (fun later => absent (List.infix_cons later))]

/-- Replacing one character is done character by character. -/
theorem replaceAll_singleton (c : Char) (text : List Char) :
    replaceAll [c] replacement text = text.flatMap fun d => if d = c then replacement else [d] := by
  induction text with
  | nil => rfl
  | cons d rest ih =>
      by_cases same : d = c
      · subst same
        rw [show d :: rest = [d] ++ rest from rfl, replaceAll_occurrence (by simp), ih]
        simp
      · have absent : ¬ [c] <+: d :: rest := by
          intro found
          exact same (List.cons_prefix_cons.mp found).1.symm
        rw [replaceAll_kept absent, ih]
        simp [same]

/-! ## Concatenation -/

/-- No occurrence of the pattern lies across the seam of two texts. -/
def Separate (pattern left right : List Char) : Prop :=
  ∀ start finish, start ++ finish = pattern → start ≠ [] → finish ≠ [] →
    start <:+ left → ¬ finish <+: right

theorem Separate.tail {c : Char} {left right : List Char}
    (separate : Separate pattern (c :: left) right) : Separate pattern left right :=
  fun start finish parts startNonempty finishNonempty ends =>
    separate start finish parts startNonempty finishNonempty
      (ends.trans (List.suffix_cons c left))

theorem Separate.append {before left right : List Char}
    (separate : Separate pattern (before ++ left) right) : Separate pattern left right :=
  fun start finish parts startNonempty finishNonempty ends =>
    separate start finish parts startNonempty finishNonempty
      (ends.trans (List.suffix_append before left))

/-- No occurrence lies across a seam behind which none can go on. -/
theorem Separate.of_tail {left right : List Char} (apart : ∀ c ∈ pattern.tail, ¬ [c] <+: right) :
    Separate pattern left right := by
  intro start finish parts startNonempty finishNonempty _ found
  rcases List.exists_cons_of_ne_nil startNonempty with ⟨c, before, rfl⟩
  rcases List.exists_cons_of_ne_nil finishNonempty with ⟨d, more, rfl⟩
  have member : d ∈ pattern.tail := by
    rw [← parts]
    simp
  exact apart d member ((List.prefix_append [d] more).trans found)

theorem Separate.of_not_mem {c : Char} (free : c ∉ pattern) (left right : List Char) :
    Separate pattern left (c :: right) := by
  refine .of_tail fun d member found => free ?_
  exact (List.cons_prefix_cons.mp found).1 ▸ List.mem_of_mem_tail member

/-- Replacement respects concatenation where no occurrence is cut. -/
theorem replaceAll_append {left right : List Char} (nonempty : pattern ≠ [])
    (separate : Separate pattern left right) :
    replaceAll pattern replacement (left ++ right) =
      replaceAll pattern replacement left ++ replaceAll pattern replacement right := by
  induction left using replaceAll_induction nonempty with
  | nil => rfl
  | occurrence rest ih =>
      rw [List.append_assoc, replaceAll_occurrence nonempty, replaceAll_occurrence nonempty,
        ih separate.append, List.append_assoc]
  | kept c rest absent ih =>
      have absentInWhole : ¬ pattern <+: c :: (rest ++ right) := by
        intro found
        rcases List.prefix_or_prefix_of_prefix found
          (List.prefix_append (c :: rest) right) with here | ⟨finish, parts⟩
        · exact absent here
        · have finishNonempty : finish ≠ [] := by
            rintro rfl
            exact absent (by rw [← parts, List.append_nil])
          -- The occurrence begins before the seam and ends behind it.
          have across : finish <+: right := by
            rw [← parts, ← List.cons_append] at found
            exact (List.prefix_append_right_inj _).mp found
          exact separate (c :: rest) finish parts (List.cons_ne_nil c rest) finishNonempty
            List.suffix_rfl across
      rw [List.cons_append, replaceAll_kept absentInWhole, replaceAll_kept absent,
        ih separate.tail, List.cons_append]

/-- Nothing is replaced across a character that the pattern does not hold. -/
theorem replaceAll_around {c : Char} (nonempty : pattern ≠ []) (free : c ∉ pattern)
    (left right : List Char) :
    replaceAll pattern replacement (left ++ c :: right) =
      replaceAll pattern replacement left ++ c :: replaceAll pattern replacement right := by
  have absent : ¬ pattern <+: c :: right := by
    intro found
    rcases List.exists_cons_of_ne_nil nonempty with ⟨d, others, rfl⟩
    exact free ((List.cons_prefix_cons.mp found).1 ▸ List.mem_cons_self)
  rw [replaceAll_append nonempty (.of_not_mem free left right), replaceAll_kept absent]

/-- Nothing is replaced around a character that stands alone, where the pattern doubles
it. -/
theorem replaceAll_doubled_around {c : Char} {left right : List Char} (ends : ¬ [c] <:+ left)
    (starts : ¬ [c] <+: right) :
    replaceAll [c, c] replacement (left ++ c :: right) =
      replaceAll [c, c] replacement left ++ c :: replaceAll [c, c] replacement right := by
  have separate : Separate [c, c] left (c :: right) := by
    intro start finish parts startNonempty _ endsWith
    rcases (List.eq_nil_or_concat start).resolve_left startNonempty with ⟨before, d, rfl⟩
    rw [List.concat_eq_append] at parts endsWith
    have member : d ∈ [c, c] := by simp [← parts]
    have same : d = c := by simpa using member
    exact absurd ((List.suffix_append before [c]).trans (same ▸ endsWith)) ends
  have absent : ¬ [c, c] <+: c :: right :=
    fun found => starts (List.cons_prefix_cons.mp found).2
  rw [replaceAll_append (List.cons_ne_nil c [c]) separate, replaceAll_kept absent]

/-- One more character is kept, unless it finishes an occurrence. -/
theorem replaceAll_concat {c : Char} {text : List Char} (nonempty : pattern ≠ [])
    (unfinished : ¬ pattern <:+ text ++ [c]) :
    replaceAll pattern replacement (text ++ [c]) =
      replaceAll pattern replacement text ++ [c] := by
  -- What an occurrence has of the last character is all of it.
  have finishes {start finish : List Char} (parts : start ++ finish = pattern)
      (finishNonempty : finish ≠ []) (ends : start <:+ text) (found : finish <+: [c]) : False := by
    rcases List.exists_cons_of_ne_nil finishNonempty with ⟨d, more, rfl⟩
    rcases List.cons_prefix_cons.mp found with ⟨rfl, none⟩
    rcases ends with ⟨before, rfl⟩
    exact unfinished ⟨before, by rw [← parts, List.prefix_nil.mp none, List.append_assoc]⟩
  have separate : Separate pattern text [c] :=
    fun start finish parts _ finishNonempty => finishes parts finishNonempty
  have absent : ¬ pattern <+: [c] := finishes (List.nil_append pattern) nonempty List.nil_suffix
  rw [replaceAll_append nonempty separate, replaceAll_kept absent, replaceAll_nil]

/-- A text without the first character of the pattern passes through, whatever
follows it. -/
theorem replaceAll_append_of_first {first : Char} {others left : List Char} (free : first ∉ left)
    (right : List Char) :
    replaceAll (first :: others) replacement (left ++ right) =
      left ++ replaceAll (first :: others) replacement right := by
  have separate : Separate (first :: others) left right := by
    intro start finish parts startNonempty _ ends
    rcases List.exists_cons_of_ne_nil startNonempty with ⟨c, more, rfl⟩
    have same : c = first := (List.cons.inj parts).1
    exact absurd (ends.subset (same ▸ List.mem_cons_self)) free
  have absent : ¬ first :: others <:+: left :=
    fun found => free (found.subset List.mem_cons_self)
  rw [replaceAll_append (List.cons_ne_nil first others) separate,
    replaceAll_eq_self (List.cons_ne_nil first others) absent]

/-- A part that begins outside the pattern, and lacks the first character of it behind
that, is kept where it stands. -/
theorem infix_replaceAll_of_infix {first c : Char} {others part text : List Char}
    (outside : c ∉ first :: others) (free : first ∉ part) (found : c :: part <:+: text) :
    c :: part <:+: replaceAll (first :: others) replacement text := by
  rcases found with ⟨before, behind, rfl⟩
  rw [List.append_assoc, List.cons_append, replaceAll_around (List.cons_ne_nil first others) outside,
    replaceAll_append_of_first free, ← List.cons_append, ← List.append_assoc]
  exact List.infix_append _ _ _

end Scan

/-! ## A single new character -/

section NewCharacter

variable {pattern : List Char} {new : Char}

/-- What stands together after the replacement, and does not hold the new
character, stood together before. -/
theorem prefix_of_prefix_replaceAll (nonempty : pattern ≠ []) {part text : List Char}
    (free : new ∉ part) (found : part <+: replaceAll pattern [new] text) : part <+: text := by
  induction text using replaceAll_induction nonempty generalizing part with
  | nil => exact found
  | occurrence rest _ =>
      rw [replaceAll_occurrence nonempty, List.singleton_append] at found
      rw [eq_nil_of_prefix_cons free found]
      exact List.nil_prefix
  | kept c rest absent ih =>
      rw [replaceAll_kept absent] at found
      exact prefix_cons_of_prefix_cons (fun more inPart => ih (fun member => free (inPart member)))
        found

theorem infix_of_infix_replaceAll (nonempty : pattern ≠ []) {part text : List Char}
    (free : new ∉ part) (found : part <:+: replaceAll pattern [new] text) : part <:+: text := by
  induction text using replaceAll_induction nonempty with
  | nil => exact found
  | occurrence rest ih =>
      rw [replaceAll_occurrence nonempty, List.singleton_append] at found
      rcases List.infix_cons_iff.mp found with here | later
      · rw [eq_nil_of_prefix_cons free here]
        exact List.nil_infix
      · exact (ih later).trans (List.suffix_append pattern rest).isInfix
  | kept c rest absent ih =>
      have whole : replaceAll pattern [new] (c :: rest) = c :: replaceAll pattern [new] rest :=
        replaceAll_kept absent
      rw [whole] at found
      rcases List.infix_cons_iff.mp found with here | later
      · exact (prefix_of_prefix_replaceAll nonempty free (whole ▸ here)).isInfix
      · exact List.infix_cons (ih later)

/-- What stands in front of a new character stood there before, in front of the same
character or of an occurrence of the pattern. -/
theorem prefix_of_prefix_replaceAll_concat (nonempty : pattern ≠ []) {part text : List Char}
    (free : new ∉ part) (found : part ++ [new] <+: replaceAll pattern [new] text) :
    part ++ [new] <+: text ∨ part ++ pattern <+: text := by
  induction text using replaceAll_induction nonempty generalizing part with
  | nil => exact absurd (List.prefix_nil.mp found) (by simp)
  | occurrence rest _ =>
      rw [replaceAll_occurrence nonempty, List.singleton_append] at found
      cases part with
      | nil => exact Or.inr (List.prefix_append pattern rest)
      | cons d part =>
          have same : d = new := (List.cons_prefix_cons.mp found).1
          exact absurd (same ▸ List.mem_cons_self) free
  | kept c rest absent ih =>
      rw [replaceAll_kept absent] at found
      cases part with
      | nil =>
          have same : new = c := (List.cons_prefix_cons.mp found).1
          exact Or.inl (List.cons_prefix_cons.mpr ⟨same, List.nil_prefix⟩)
      | cons d part =>
          rcases List.cons_prefix_cons.mp found with ⟨same, behind⟩
          rcases ih (fun member => free (List.mem_cons_of_mem d member)) behind with kept | spelled
          · exact Or.inl (List.cons_prefix_cons.mpr ⟨same, kept⟩)
          · exact Or.inr (List.cons_prefix_cons.mpr ⟨same, spelled⟩)

theorem infix_of_infix_replaceAll_concat (nonempty : pattern ≠ []) {part text : List Char}
    (free : new ∉ part) (found : part ++ [new] <:+: replaceAll pattern [new] text) :
    part ++ [new] <:+: text ∨ part ++ pattern <:+: text := by
  have atStart {text : List Char} (here : part ++ [new] <+: replaceAll pattern [new] text) :
      part ++ [new] <:+: text ∨ part ++ pattern <:+: text :=
    (prefix_of_prefix_replaceAll_concat nonempty free here).imp (·.isInfix) (·.isInfix)
  induction text using replaceAll_induction nonempty with
  | nil => exact absurd (List.infix_nil.mp found) (by simp)
  | occurrence rest ih =>
      have whole : replaceAll pattern [new] (pattern ++ rest) = new :: replaceAll pattern [new] rest :=
        replaceAll_occurrence nonempty rest
      have inside := (List.suffix_append pattern rest).isInfix
      rw [whole] at found
      rcases List.infix_cons_iff.mp found with here | later
      · exact atStart (whole ▸ here)
      · exact (ih later).imp (·.trans inside) (·.trans inside)
  | kept c rest absent ih =>
      have whole : replaceAll pattern [new] (c :: rest) = c :: replaceAll pattern [new] rest :=
        replaceAll_kept absent
      rw [whole] at found
      rcases List.infix_cons_iff.mp found with here | later
      · exact atStart (whole ▸ here)
      · exact (ih later).imp List.infix_cons List.infix_cons

/-- Where the new character is not found, nothing has been replaced. -/
theorem replaceAll_eq_self_of_not_mem (nonempty : pattern ≠ []) {text : List Char}
    (free : new ∉ replaceAll pattern [new] text) : replaceAll pattern [new] text = text := by
  induction text using replaceAll_induction nonempty with
  | nil => rfl
  | occurrence rest _ =>
      rw [replaceAll_occurrence nonempty, List.singleton_append] at free
      exact absurd List.mem_cons_self free
  | kept c rest absent ih =>
      rw [replaceAll_kept absent] at free ⊢
      rw [ih (fun member => free (List.mem_cons_of_mem c member))]

theorem suffix_of_suffix_replaceAll (nonempty : pattern ≠ []) {part text : List Char}
    (free : new ∉ part) (found : part <:+ replaceAll pattern [new] text) : part <:+ text := by
  induction text using replaceAll_induction nonempty with
  | nil => exact found
  | occurrence rest ih =>
      rw [replaceAll_occurrence nonempty, List.singleton_append] at found
      rcases List.suffix_cons_iff.mp found with whole | later
      · exact absurd (whole ▸ List.mem_cons_self) free
      · exact (ih later).trans (List.suffix_append pattern rest)
  | kept c rest absent ih =>
      rw [replaceAll_kept absent] at found
      rcases List.suffix_cons_iff.mp found with rfl | later
      · have untouched : replaceAll pattern [new] rest = rest :=
          replaceAll_eq_self_of_not_mem nonempty fun member =>
            free (List.mem_cons_of_mem c member)
        rw [untouched]
      · exact (ih later).trans (List.suffix_cons c rest)

/-- The pattern does not occur where it has been replaced. -/
theorem not_infix_replaceAll (nonempty : pattern ≠ []) (free : new ∉ pattern) (text : List Char) :
    ¬ pattern <:+: replaceAll pattern [new] text := by
  induction text using replaceAll_induction nonempty with
  | nil =>
      intro found
      exact nonempty (List.infix_nil.mp found)
  | occurrence rest ih =>
      rw [replaceAll_occurrence nonempty, List.singleton_append]
      intro found
      rcases List.infix_cons_iff.mp found with here | later
      · exact nonempty (eq_nil_of_prefix_cons free here)
      · exact ih later
  | kept c rest absent ih =>
      have whole : replaceAll pattern [new] (c :: rest) = c :: replaceAll pattern [new] rest :=
        replaceAll_kept absent
      rw [whole]
      intro found
      rcases List.infix_cons_iff.mp found with here | later
      · exact absent (prefix_of_prefix_replaceAll nonempty free (whole ▸ here))
      · exact ih later

/-- Spelling the new character out again undoes the replacement. -/
theorem replaceAll_replaceAll_singleton (nonempty : pattern ≠ []) {text : List Char}
    (free : new ∉ text) : replaceAll [new] pattern (replaceAll pattern [new] text) = text := by
  induction text using replaceAll_induction nonempty with
  | nil => rfl
  | occurrence rest ih =>
      rw [replaceAll_occurrence nonempty, replaceAll_occurrence (by simp),
        ih (fun member => free (List.mem_append_right pattern member))]
  | kept c rest absent ih =>
      have different : ¬ [new] <+: c :: replaceAll pattern [new] rest := by
        intro found
        exact free (List.mem_cons.mpr (Or.inl (List.cons_prefix_cons.mp found).1))
      rw [replaceAll_kept absent, replaceAll_kept different,
        ih (fun member => free (List.mem_cons_of_mem c member))]

end NewCharacter

/-! ## Reading a spelling back -/

section Spelling

variable {first new : Char} {others : List Char}

/-- An occurrence can only start where a spelling starts, since its first
character comes nowhere else in it. -/
theorem prefix_of_prefix_spelled {part text : List Char} (free : first ∉ part)
    (found : part <+: replaceAll [new] (first :: others) text) : part <+: text := by
  induction text generalizing part with
  | nil => exact found
  | cons c rest ih =>
      rw [replaceAll_singleton, List.flatMap_cons] at found
      by_cases same : c = new
      · rw [if_pos same, List.cons_append] at found
        rw [eq_nil_of_prefix_cons free found]
        exact List.nil_prefix
      · rw [if_neg same, List.singleton_append, ← replaceAll_singleton] at found
        exact prefix_cons_of_prefix_cons
          (fun more inPart => ih (fun member => free (inPart member))) found

theorem infix_of_infix_spelled {part text : List Char} (disjoint : ∀ c ∈ first :: others, c ∉ part)
    (found : part <:+: replaceAll [new] (first :: others) text) : part <:+: text := by
  induction text with
  | nil => exact found
  | cons c rest ih =>
      rw [replaceAll_singleton, List.flatMap_cons, ← replaceAll_singleton] at found
      by_cases same : c = new
      · rw [if_pos same] at found
        exact List.infix_cons (ih (infix_of_infix_append disjoint found))
      · rw [if_neg same, List.singleton_append] at found
        rcases List.infix_cons_iff.mp found with here | later
        · have free := disjoint first List.mem_cons_self
          exact (prefix_cons_of_prefix_cons
            (fun more inPart => prefix_of_prefix_spelled (fun member => free (inPart member)))
            here).isInfix
        · exact List.infix_cons (ih later)

/-- A spelling whose first character does not come again in it is read back
wherever it was written, and nowhere else. -/
theorem replaceAll_spelled (unbordered : first ∉ others) {text : List Char}
    (absent : ¬ first :: others <:+: text) :
    replaceAll (first :: others) [new] (replaceAll [new] (first :: others) text) = text := by
  induction text with
  | nil => rfl
  | cons c rest ih =>
      have absentLater : ¬ first :: others <:+: rest :=
        fun later => absent (List.infix_cons later)
      rw [replaceAll_singleton, List.flatMap_cons, ← replaceAll_singleton]
      by_cases same : c = new
      · rw [if_pos same, replaceAll_occurrence (List.cons_ne_nil first others), ih absentLater, same]
        rfl
      · have notHere : ¬ first :: others <+: c :: replaceAll [new] (first :: others) rest := by
          intro found
          rcases List.cons_prefix_cons.mp found with ⟨equal, later⟩
          have here : first :: others <+: c :: rest :=
            List.cons_prefix_cons.mpr ⟨equal, prefix_of_prefix_spelled unbordered later⟩
          exact absent here.isInfix
        rw [if_neg same, List.singleton_append, replaceAll_kept notHere, ih absentLater]

end Spelling

end Text
end FormulaLine

import FormulaLine.Proofs.Grammar
import FormulaLine.Proofs.Marking

namespace FormulaLine
namespace Grammar

open GlyphClass Split

/-!
# Juxtaposed factors are multiplied

A formula typed in the grammar comes back with a marker between each two factors
of a product, at every depth, and with nothing else changed.

Two passes show this.  The substitutions give the condensed spelling, piece by
piece.  The marking pass then keeps an invariant: behind a factor the class is
the one class of its kind, and this class decides with the first character of
the next factor that a marker goes between.  Behind an operator, a sign or an
opening parenthesis nothing is handed on, so there a factor starts unmarked.
-/

/-! ## The condensed spelling -/

/-- Characters that all styles have in common.  Among the letters only `p` is
missing, which occurs in `exp` and in the word for the constant. -/
def isCommon (c : Char) : Bool :=
  Glyph.isAsciiDigit c || (Glyph.isAsciiLetter c && c != 'p') ||
    ['.', '(', ')', '+', '-', '/'].contains c

theorem isCommon_spelling {f : Builtin} (other : f ≠ .exp) : f.spelling.all isCommon = true := by
  cases f <;> first | exact absurd rfl other | decide

theorem isCommon_letter (l : Letter) : l.spell.all isCommon = true := by
  cases l <;> decide

theorem isCommon_sign (sign : Option Sign) : (Sign.spell sign).all isCommon = true := by
  rcases sign with _ | _ | _ <;> decide

theorem isCommon_digits (digits : Digits) : digits.text.all isCommon = true := by
  rw [List.all_eq_true]
  intro c member
  rw [isCommon, digits.isAsciiDigit c member, Bool.true_or, Bool.true_or]

theorem isCommon_numeral (n : Numeral) : n.spell.all isCommon = true := by
  rw [Numeral.spell]
  cases n.fraction with
  | none => exact isCommon_digits n.whole
  | some fraction =>
      rw [List.all_append, List.all_cons, isCommon_digits, isCommon_digits]
      decide

theorem ne_of_isCommon {c d : Char} (common : isCommon c = true) (other : isCommon d = false) :
    d ≠ c := by
  rintro rfl
  rw [common] at other
  cases other

theorem condense_common {left : List Char} (common : left.all isCommon = true)
    (right : List Char) : condense (left ++ right) = left ++ condense right := by
  have free {d : Char} (other : isCommon d = false) : d ∉ left :=
    fun member => ne_of_isCommon (List.all_eq_true.mp common d member) other rfl
  have constants : Text.replaceAll "pi".toList ['π'] (left ++ right) =
      left ++ Text.replaceAll "pi".toList ['π'] right :=
    Text.replaceAll_append_of_first (free (by decide)) right
  rw [condense, constants]
  exact Text.replaceAll_append_of_first (free (by decide)) _

theorem condense_opening (right : List Char) : condense ('(' :: right) = '(' :: condense right :=
  condense_common (by decide : ['('].all isCommon = true) right

theorem condense_closing (right : List Char) : condense (')' :: right) = ')' :: condense right :=
  condense_common (by decide : [')'].all isCommon = true) right

theorem condense_constant (c : Constant) (right : List Char) :
    condense (Style.typed.constant c ++ right) = 'π' :: condense right := by
  have spelled : Text.replaceAll "pi".toList ['π'] (Style.typed.constant c ++ right) =
      ['π'] ++ Text.replaceAll "pi".toList ['π'] right := by
    cases c with
    | symbol => exact Text.replaceAll_append_of_first (by decide) right
    | word => exact Text.replaceAll_occurrence (by decide) right
  rw [condense, spelled]
  exact Text.replaceAll_append_of_first (by decide : '*' ∉ ['π']) _

theorem condense_power (p : Power) (right : List Char) :
    condense (Style.typed.power p ++ right) = '^' :: condense right := by
  have kept : Text.replaceAll "pi".toList ['π'] (Style.typed.power p ++ right) =
      Style.typed.power p ++ Text.replaceAll "pi".toList ['π'] right :=
    Text.replaceAll_append_of_first (by cases p <;> decide) right
  rw [condense, kept]
  cases p with
  | caret => exact Text.replaceAll_append_of_first (by decide : '*' ∉ ['^']) _
  | stars => exact Text.replaceAll_occurrence (by decide) _

/-- A single marker stays, since what follows it is no marker. -/
theorem condense_times {right : List Char} (single : right.head? ≠ some '*') :
    condense ('*' :: right) = '*' :: condense right := by
  have kept : Text.replaceAll "pi".toList ['π'] ('*' :: right) =
      '*' :: Text.replaceAll "pi".toList ['π'] right :=
    Text.replaceAll_append_of_first (by decide : 'p' ∉ ['*']) right
  have alone : ¬ "**".toList <+: '*' :: Text.replaceAll "pi".toList ['π'] right := by
    intro doubled
    have second := (power_prefix_cons_iff.mp doubled).2
    rcases List.head?_eq_some_iff.mp second with ⟨more, starts⟩
    have found : ['*'] <+: Text.replaceAll "pi".toList ['π'] right :=
      starts ▸ List.prefix_append ['*'] more
    rcases Text.prefix_of_prefix_replaceAll (by decide) (by decide) found with ⟨rest, whole⟩
    exact single (whole ▸ rfl)
  rw [condense, kept]
  exact Text.replaceAll_kept alone

/-! ### No spelling starts with a marker -/

theorem head?_ne_of_common {left : List Char} (common : left.all isCommon = true)
    (nonempty : left ≠ []) (right : List Char) : (left ++ right).head? ≠ some '*' := by
  rcases List.exists_cons_of_ne_nil nonempty with ⟨c, more, rfl⟩
  have first : isCommon c = true := List.all_eq_true.mp common c List.mem_cons_self
  intro marker
  have same : c = '*' := Option.some.inj marker
  exact ne_of_isCommon first (by decide) same.symm

theorem Numeral.spell_ne_nil (n : Numeral) : n.spell ≠ [] := by
  rw [Numeral.spell]
  cases n.fraction with
  | none => exact n.whole.nonempty
  | some fraction => simp

theorem spelling_ne_nil (f : Builtin) : f.spelling ≠ [] := by
  cases f <;> decide

theorem Factor.head?_typed_ne {k : Kind} (f : Factor k) (right : List Char) :
    (f.spell .typed ++ right).head? ≠ some '*' := by
  cases f with
  | number n => exact head?_ne_of_common (isCommon_numeral n) n.spell_ne_nil right
  | letter l => exact head?_ne_of_common (isCommon_letter l) (by cases l <;> decide) right
  | constant c => cases c <;> simp [Factor.spell, Style.typed]
  | group inner => simp [Factor.spell]
  | call f other argument =>
      rw [Factor.spell, List.append_assoc]
      exact head?_ne_of_common (isCommon_spelling other) (spelling_ne_nil f) _

theorem Product.head?_typed_ne {k : Kind} (p : Product k) (right : List Char) :
    (p.spell .typed ++ right).head? ≠ some '*' := by
  cases p with
  | single f => exact f.head?_typed_ne right
  | beside f rest fits =>
      rw [Product.spell, List.append_assoc]
      exact f.head?_typed_ne _

theorem Expression.head?_typed_ne (e : Expression) (right : List Char) :
    (e.spell .typed ++ right).head? ≠ some '*' := by
  cases e with
  | product sign p =>
      rw [Expression.spell, List.append_assoc]
      cases sign with
      | none => exact p.head?_typed_ne right
      | some sign => cases sign <;> simp [Sign.spell]
  | combined sign p operator rest =>
      rw [Expression.spell, List.append_assoc, List.append_assoc]
      cases sign with
      | none => exact p.head?_typed_ne _
      | some sign => cases sign <;> simp [Sign.spell]

/-! ### Piece by piece -/

theorem condense_operator (operator : Operator) {right : List Char}
    (single : right.head? ≠ some '*') :
    condense (operator.spell .typed ++ right) = operator.spell .condensed ++ condense right := by
  cases operator with
  | plus => exact condense_common (by decide : ['+'].all isCommon = true) right
  | minus => exact condense_common (by decide : ['-'].all isCommon = true) right
  | divide => exact condense_common (by decide : ['/'].all isCommon = true) right
  | times => exact condense_times single
  | power spelling => exact condense_power spelling right

mutual
theorem Factor.condense_typed {k : Kind} : (f : Factor k) → (right : List Char) →
    condense (f.spell .typed ++ right) = f.spell .condensed ++ condense right
  | .number n, right => condense_common (isCommon_numeral n) right
  | .letter l, right => condense_common (isCommon_letter l) right
  | .constant c, right => condense_constant c right
  | .group inner, right => by
      simp only [Factor.spell, List.cons_append, List.append_assoc, List.nil_append]
      rw [condense_opening, inner.condense_typed, condense_closing]
  | .call f other argument, right => by
      simp only [Factor.spell, List.cons_append, List.append_assoc, List.nil_append]
      rw [condense_common (isCommon_spelling other), condense_opening, argument.condense_typed,
        condense_closing]

theorem Product.condense_typed {k : Kind} : (p : Product k) → (right : List Char) →
    condense (p.spell .typed ++ right) = p.spell .condensed ++ condense right
  | .single f, right => f.condense_typed right
  | .beside f rest _, right => by
      simp only [Product.spell, List.append_assoc]
      rw [f.condense_typed]
      exact congrArg (f.spell .condensed ++ ·) (rest.condense_typed right)

theorem Expression.condense_typed : (e : Expression) → (right : List Char) →
    condense (e.spell .typed ++ right) = e.spell .condensed ++ condense right
  | .product sign p, right => by
      simp only [Expression.spell, List.append_assoc]
      rw [condense_common (isCommon_sign sign), p.condense_typed]
  | .combined sign p operator rest, right => by
      simp only [Expression.spell, List.append_assoc]
      rw [condense_common (isCommon_sign sign), p.condense_typed,
        condense_operator operator (rest.head?_typed_ne right), rest.condense_typed]
end

/-- The characters of a condensed spelling. -/
def isCondensed (c : Char) : Bool :=
  isCommon c || ['π', '^', '*'].contains c

theorem isCondensed_of_common {text : List Char} (common : text.all isCommon = true) :
    text.all isCondensed = true := by
  rw [List.all_eq_true] at common ⊢
  intro c member
  rw [isCondensed, common c member, Bool.true_or]

mutual
theorem Factor.isCondensed_spell {k : Kind} : (f : Factor k) →
    (f.spell .condensed).all isCondensed = true
  | .number n => isCondensed_of_common (isCommon_numeral n)
  | .letter l => isCondensed_of_common (isCommon_letter l)
  | .constant _ => rfl
  | .group inner => by
      rw [Factor.spell, List.all_cons, List.all_append, inner.isCondensed_spell]
      decide
  | .call f other argument => by
      rw [Factor.spell, List.all_append, isCondensed_of_common (isCommon_spelling other),
        List.all_cons, List.all_append, argument.isCondensed_spell]
      decide

theorem Product.isCondensed_spell {k : Kind} : (p : Product k) →
    (p.spell .condensed).all isCondensed = true
  | .single f => f.isCondensed_spell
  | .beside f rest _ => by
      rw [Product.spell, List.all_append, f.isCondensed_spell]
      exact rest.isCondensed_spell

theorem Expression.isCondensed_spell : (e : Expression) →
    (e.spell .condensed).all isCondensed = true
  | .product sign p => by
      rw [Expression.spell, List.all_append, isCondensed_of_common (isCommon_sign sign),
        p.isCondensed_spell]
      rfl
  | .combined sign p operator rest => by
      have operators : (operator.spell .condensed).all isCondensed = true := by
        cases operator <;> rfl
      rw [Expression.spell, List.all_append, List.all_append, List.all_append,
        isCondensed_of_common (isCommon_sign sign), p.isCondensed_spell, operators,
        rest.isCondensed_spell]
      rfl
end

/-- The substitutions give the condensed spelling.  No `exp` is hidden, since no
letter `p` is left. -/
theorem substitute_typed (e : Expression) :
    substitute (e.spell .typed) = e.spell .condensed := by
  have condensed : condense (e.spell .typed) = e.spell .condensed := by
    have whole := e.condense_typed []
    rwa [List.append_nil, show condense [] = [] from rfl, List.append_nil] at whole
  have absent : ¬ "exp".toList <:+: e.spell .condensed := by
    intro found
    have member : 'p' ∈ e.spell .condensed := found.subset (by decide)
    have allowed := List.all_eq_true.mp e.isCondensed_spell 'p' member
    exact absurd allowed (by decide)
  rw [substitute_eq, condensed]
  exact Text.replaceAll_eq_self (by decide) absent

/-! ## The written spelling -/

/-- Behind a glyph of class `previous` the text is marked as `marked`, and its
last character has class `next`. -/
structure Reads (previous : GlyphClass) (text marked : List Char) (next : GlyphClass) : Prop where
  markAfter_eq : markAfter previous text = marked
  afterAll_eq : previous.afterAll text = next

theorem Reads.append {first second third : GlyphClass} {left leftMarked right rightMarked : List Char}
    (before : Reads first left leftMarked second) (behind : Reads second right rightMarked third) :
    Reads first (left ++ right) (leftMarked ++ rightMarked) third where
  markAfter_eq := by
    rw [markAfter_append, before.markAfter_eq, before.afterAll_eq, behind.markAfter_eq]
  afterAll_eq := by
    rw [afterAll_append, before.afterAll_eq, behind.afterAll_eq]

/-- The class behind an operator, a sign or an opening parenthesis, and at the
start of a text. -/
def Quiet (previous : GlyphClass) : Prop :=
  previous = neutral ∨ previous = first ['(']

theorem reads_of_quiet {previous : GlyphClass} (quiet : Quiet previous) {c : Char}
    (other : c ≠ Vocabulary.marker) : Reads previous [c] [c] (first [c]) := by
  have idle : previous.closeParen = false ∧ previous.plainDigit = false ∧
      previous.plainSymbol = false := by
    rcases quiet with rfl | rfl <;> decide
  have continues := startsFactor_eq_false_of_idle other idle.1 idle.2.1 idle.2.2
  have releases : previous.Releases := by
    rcases quiet with rfl | rfl
    · exact releases_neutral
    · exact ⟨rfl, rfl, rfl⟩
  have current : previous.after [c] = first [c] := releases.after_eq_first c
  constructor
  · rw [markAfter_of_continues continues]
    rfl
  · exact current

/-! ### Kinds of factors -/

/-- The class of the last character of a factor. -/
def Kind.ending : Kind → GlyphClass
  | .number => { digit := true }
  | .letter => { letter := true, symbol := true }
  | .constant => { symbol := true }
  | .group => { closeParen := true }
  | .call => { closeParen := true }

/-- The class of the first character of a factor. -/
def Kind.beginning : Kind → GlyphClass
  | .number => { digit := true }
  | .letter => { letter := true, symbol := true }
  | .constant => { symbol := true }
  | .group => { openParen := true }
  | .call => { letter := true }

/-- A factor of the kind may start with the character. -/
structure Kind.Starts (k : Kind) (c : Char) : Prop where
  first_eq : first [c] = k.beginning
  ne_marker : c ≠ Vocabulary.marker
  opening_iff : c = '(' ↔ k = .group

theorem Kind.ending_releases (k : Kind) : k.ending.Releases := by
  cases k <;> exact ⟨rfl, rfl, rfl⟩

/-- Between factors that may stand side by side a marker goes. -/
theorem startsFactor_ending {k l : Kind} (fits : k.admits l = true) {c : Char}
    (starts : l.Starts c) :
    startsFactor .multiplication [c] (k.ending.after [c]) k.ending = true := by
  rw [k.ending_releases.after_eq_first, starts.first_eq, startsFactor_eq,
    if_neg (by simp [singleton_eq_markerGlyph_iff, starts.ne_marker])]
  have opening : [c] = ['('] ↔ l = .group := by simp [starts.opening_iff]
  cases k <;> cases l <;>
    simp_all [Kind.admits, Kind.ending, Kind.beginning, plainSymbol, plainDigit]

/-- The text starts as a factor of the kind does, and from there on reads as
`marked` with its last character in class `next`. -/
def Enters (k : Kind) (text marked : List Char) (next : GlyphClass) : Prop :=
  ∃ c rest restMarked, text = c :: rest ∧ marked = c :: restMarked ∧ k.Starts c ∧
    Reads (first [c]) rest restMarked next

namespace Enters

variable {k : Kind} {text marked : List Char} {next : GlyphClass}

theorem append (enters : Enters k text marked next) {right rightMarked : List Char}
    {last : GlyphClass} (behind : Reads next right rightMarked last) :
    Enters k (text ++ right) (marked ++ rightMarked) last := by
  rcases enters with ⟨c, rest, restMarked, rfl, rfl, starts, reads⟩
  exact ⟨c, rest ++ right, restMarked ++ rightMarked, rfl, rfl, starts, reads.append behind⟩

theorem reads_of_quiet (enters : Enters k text marked next) {previous : GlyphClass}
    (quiet : Quiet previous) : Reads previous text marked next := by
  rcases enters with ⟨c, rest, restMarked, rfl, rfl, starts, reads⟩
  exact (Grammar.reads_of_quiet quiet starts.ne_marker).append reads

/-- Behind a factor that it may follow, the text is marked at its start. -/
theorem reads_of_admits (enters : Enters k text marked next) {j : Kind}
    (fits : j.admits k = true) : Reads j.ending text ('*' :: marked) next := by
  rcases enters with ⟨c, rest, restMarked, rfl, rfl, starts, reads⟩
  have current : j.ending.after [c] = first [c] := j.ending_releases.after_eq_first c
  constructor
  · rw [markAfter_of_starts starts.ne_marker (startsFactor_ending fits starts), current,
      reads.markAfter_eq]
    rfl
  · rw [afterAll_cons, current, reads.afterAll_eq]

end Enters

/-! ### Numbers and names -/

theorem first_of_isAsciiDigit {c : Char} (digit : Glyph.isAsciiDigit c = true) :
    first [c] = Kind.number.ending := by
  have symbol : Glyph.isSymbol [c] = false := Glyph.isSymbol_of_isAsciiDigit digit
  have closing : c ≠ ')' := by
    rintro rfl
    exact absurd digit (by decide)
  have opening : c ≠ '(' := by
    rintro rfl
    exact absurd digit (by decide)
  simp [first, inheriting, Kind.ending, digit, symbol, Glyph.isAsciiLetter_of_isAsciiDigit digit,
    closing, opening]

theorem starts_of_isAsciiDigit {c : Char} (digit : Glyph.isAsciiDigit c = true) :
    Kind.number.Starts c where
  first_eq := first_of_isAsciiDigit digit
  ne_marker := by
    rintro rfl
    exact absurd digit (by decide)
  opening_iff := by
    constructor
    · rintro rfl
      exact absurd digit (by decide)
    · intro impossible
      cases impossible

/-- Digits behind a digit belong to its number. -/
theorem reads_digits {digits : List Char} (isAsciiDigit : ∀ c ∈ digits, Glyph.isAsciiDigit c = true) :
    Reads Kind.number.ending digits digits Kind.number.ending := by
  induction digits with
  | nil => exact ⟨rfl, rfl⟩
  | cons c digits ih =>
      have digit := isAsciiDigit c List.mem_cons_self
      have later := ih (fun d member => isAsciiDigit d (List.mem_cons_of_mem c member))
      have current : Kind.number.ending.after [c] = Kind.number.ending :=
        (Kind.number.ending_releases.after_eq_first c).trans (first_of_isAsciiDigit digit)
      have starts := starts_of_isAsciiDigit digit
      have continues : startsFactor .multiplication [c] (Kind.number.ending.after [c])
          Kind.number.ending = false := by
        have opening : c ≠ '(' := fun same => Kind.noConfusion (starts.opening_iff.mp same)
        rw [current, startsFactor_eq, if_neg (by simp [singleton_eq_markerGlyph_iff, starts.ne_marker])]
        simp [Kind.ending, plainDigit, plainSymbol, opening]
      constructor
      · rw [markAfter_of_continues continues, current, later.markAfter_eq]
      · rw [afterAll_cons, current, later.afterAll_eq]

theorem enters_digits (digits : Digits) :
    Enters .number digits.text digits.text Kind.number.ending := by
  rcases List.exists_cons_of_ne_nil digits.nonempty with ⟨c, rest, text⟩
  have isAsciiDigit := digits.isAsciiDigit
  rw [text] at isAsciiDigit ⊢
  have digit := isAsciiDigit c List.mem_cons_self
  refine ⟨c, rest, rest, rfl, rfl, starts_of_isAsciiDigit digit, ?_⟩
  rw [first_of_isAsciiDigit digit]
  exact reads_digits (fun d member => isAsciiDigit d (List.mem_cons_of_mem c member))

theorem enters_numeral (n : Numeral) : Enters .number n.spell n.spell Kind.number.ending := by
  rw [Numeral.spell]
  cases n.fraction with
  | none => exact enters_digits n.whole
  | some fraction =>
      have point : Reads Kind.number.ending ['.'] ['.'] neutral := ⟨rfl, rfl⟩
      exact (enters_digits n.whole).append
        (point.append ((enters_digits fraction).reads_of_quiet (Or.inl rfl)))

theorem enters_letter (l : Letter) : Enters .letter l.spell l.spell Kind.letter.ending := by
  cases l with
  | x => exact ⟨'x', [], [], rfl, rfl, ⟨by decide, by decide, by decide⟩, ⟨rfl, by decide⟩⟩
  | e => exact ⟨'e', [], [], rfl, rfl, ⟨by decide, by decide, by decide⟩, ⟨rfl, by decide⟩⟩

theorem enters_constant : Enters .constant ['π'] ['π'] Kind.constant.ending :=
  ⟨'π', [], [], rfl, rfl, ⟨by decide, by decide, by decide⟩, ⟨rfl, by decide⟩⟩

/-- A name that is called is one word, up to its opening parenthesis. -/
theorem enters_name {f : Builtin} (other : f ≠ .exp) :
    Enters .call (f.spelling ++ ['(']) (f.spelling ++ ['(']) (first ['(']) := by
  cases f <;> first
    | exact absurd rfl other
    | exact ⟨_, _, _, rfl, rfl, ⟨by decide, by decide, by decide⟩, ⟨by decide, by decide⟩⟩

/-! ### Factors, products, expressions -/

theorem reads_closing (k : Kind) : Reads k.ending [')'] [')'] Kind.group.ending := by
  cases k <;> exact ⟨rfl, rfl⟩

theorem reads_sign {previous : GlyphClass} (quiet : Quiet previous) (sign : Option Sign) :
    ∃ next, Quiet next ∧ Reads previous (Sign.spell sign) (Sign.spell sign) next := by
  rcases sign with _ | _ | _
  · exact ⟨previous, quiet, ⟨rfl, rfl⟩⟩
  · exact ⟨neutral, Or.inl rfl, reads_of_quiet quiet (by decide)⟩
  · exact ⟨neutral, Or.inl rfl, reads_of_quiet quiet (by decide)⟩

theorem reads_operator (k : Kind) (operator : Operator) :
    Reads k.ending (operator.spell .condensed) (operator.spell .written) neutral := by
  cases k <;> cases operator <;> exact ⟨rfl, rfl⟩

mutual
theorem Factor.enters {k : Kind} : (f : Factor k) →
    Enters k (f.spell .condensed) (f.spell .written) k.ending
  | .number n => enters_numeral n
  | .letter l => enters_letter l
  | .constant _ => enters_constant
  | .group inner => by
      rcases inner.reads with ⟨l, reads⟩
      have opened := reads (first ['(']) (Or.inr rfl)
      exact ⟨'(', _, _, rfl, rfl, ⟨by decide, by decide, by decide⟩,
        opened.append (reads_closing l)⟩
  | .call f other argument => by
      rcases argument.reads with ⟨l, reads⟩
      have opened := reads (first ['(']) (Or.inr rfl)
      have whole : Enters .call _ _ Kind.call.ending :=
        (enters_name other).append (opened.append (reads_closing l))
      simpa [Factor.spell] using whole

/-- A product starts as its first factor does and ends as its last one does. -/
theorem Product.enters {k : Kind} : (p : Product k) →
    ∃ l : Kind, Enters k (p.spell .condensed) (p.spell .written) l.ending
  | .single f => ⟨k, f.enters⟩
  | .beside f rest fits => by
      rcases rest.enters with ⟨l, enters⟩
      exact ⟨l, f.enters.append (enters.reads_of_admits fits)⟩

theorem Expression.reads : (e : Expression) → ∃ l : Kind, ∀ previous, Quiet previous →
    Reads previous (e.spell .condensed) (e.spell .written) l.ending
  | .product sign p => by
      rcases p.enters with ⟨l, enters⟩
      refine ⟨l, ?_⟩
      intro previous quiet
      rcases reads_sign quiet sign with ⟨next, nextQuiet, signed⟩
      exact signed.append (enters.reads_of_quiet nextQuiet)
  | .combined sign p operator rest => by
      rcases p.enters with ⟨k, enters⟩
      rcases rest.reads with ⟨l, reads⟩
      refine ⟨l, ?_⟩
      intro previous quiet
      rcases reads_sign quiet sign with ⟨next, nextQuiet, signed⟩
      exact signed.append ((enters.reads_of_quiet nextQuiet).append
        ((reads_operator k operator).append (reads neutral (Or.inl rfl))))
end

theorem markAfter_condensed (e : Expression) :
    markAfter neutral (e.spell .condensed) = e.spell .written := by
  rcases e.reads with ⟨l, reads⟩
  exact (reads neutral (Or.inl rfl)).markAfter_eq

theorem placeholder_not_mem_written (e : Expression) :
    Vocabulary.expPlaceholder ∉ e.spell .written := by
  rw [← markAfter_condensed]
  intro member
  rcases (marked_markAfter neutral _).mem member with old | marker
  · have allowed := List.all_eq_true.mp e.isCondensed_spell _ old
    exact absurd allowed (by decide)
  · exact absurd marker (by decide)

/-- A formula of the grammar, typed with its products implied, is answered with
the same formula in which every product is written. -/
theorem explicit_typed (e : Expression) : explicit (e.spell .typed) = e.spell .written := by
  rw [explicit_eq, substitute_typed, markAfter_condensed]
  exact restore_eq_self (placeholder_not_mem_written e)

/-- The two spellings of a formula with products in an argument and in an
exponent. -/
example :
    let two : Digits := ⟨['2'], by decide, List.forall_mem_singleton.mpr (by decide)⟩
    let one : Digits := ⟨['1'], by decide, List.forall_mem_singleton.mpr (by decide)⟩
    let ex : Expression := .product none (.beside (.letter .e) (.single (.letter .x)) rfl)
    let difference : Expression := .combined none (.single (.letter .x)) .minus
      (.product none (.single (.number ⟨one, none⟩)))
    let e : Expression := .combined none
      (.beside (.number ⟨two, none⟩) (.beside (.constant .word)
        (.beside (.call .log2 (by decide) ex) (.single (.group difference)) rfl) rfl) rfl)
      (.power .stars)
      (.product (some .minus) (.beside (.constant .symbol) (.single (.letter .x)) rfl))
    e.spell .typed = "2pilog2(ex)(x-1)**-πx".toList ∧
      e.spell .written = "2*π*log2(e*x)*(x-1)^-π*x".toList :=
  ⟨rfl, rfl⟩

end Grammar
end FormulaLine

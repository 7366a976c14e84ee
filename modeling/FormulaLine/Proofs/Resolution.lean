import FormulaLine.Proofs.Guarding
import FormulaLine.Proofs.ValueNames

namespace FormulaLine

/-!
# Where the names of a value come from

A word that has an entry in the vocabulary stands for that entry; any other word makes
a symbol or a function of its own name.  The names in a value are therefore words of
the formula that have no entry.  There is one more: behind the word `lambda`, what
follows is handed to a function `Lambda`.

That names are resolved in this way is all that is assumed of an interpreter where its
names matter.  It is proved here for the interpreter that runs, from the characters of
a formula to the names of its value.
-/

namespace Formula

/-- Whether the character is a letter or a digit, as words are made of. -/
def isWordPart (c : Char) : Bool :=
  Glyph.isAsciiLetter c || c == 'π' || Glyph.isAsciiDigit c

/-- The words of a formula: its runs of letters and digits, without the digits in
front. -/
def words (formula : List Char) : List (List Char) :=
  ((formula.splitOnP fun c => !isWordPart c).map fun run =>
    run.dropWhile Glyph.isAsciiDigit).filter fun word => !word.isEmpty

/-- The formula mentions the name, as a word without an entry in the vocabulary or
through the word `lambda`. -/
def Mentions (formula name : List Char) : Prop :=
  name ∈ words formula ∧ name ∉ Vocabulary.names ∨
    name = "Lambda".toList ∧ "lambda".toList ∈ words formula

end Formula

/-- Names are resolved by the vocabulary: those that are left in a value are mentioned
by the formula, which may be any typed formula with its multiplications written. -/
structure Interpreter.ResolvesNames {α : Type} (I : Interpreter α) : Prop where
  symbols : ∀ {text value}, text.all Guard.isAllowed = true →
    I.read (Split.explicit text) = .ok (some value) →
    ∀ name ∈ I.symbolNames value, Formula.Mentions (Split.explicit text) name
  calls : ∀ {text value}, text.all Guard.isAllowed = true →
    I.read (Split.explicit text) = .ok (some value) →
    ∀ name ∈ I.callNames value, Formula.Mentions (Split.explicit text) name

namespace Formula

/-! ## Words -/

section Words

variable {c : Char} {text word : List Char}

theorem words_append_cons (separates : isWordPart c = false) (before after : List Char) :
    words (before ++ c :: after) = words before ++ words after := by
  rw [words, List.splitOnP_append_cons before after (by simp [separates]), List.map_append,
    List.filter_append]
  rfl

theorem words_cons_of_separator (separates : isWordPart c = false) (text : List Char) :
    words (c :: text) = words text :=
  words_append_cons separates [] text

theorem words_cons_of_digit (digit : Glyph.isAsciiDigit c = true) (text : List Char) :
    words (c :: text) = words text := by
  have inside : isWordPart c = true := by simp [isWordPart, digit]
  rcases List.exists_cons_of_ne_nil (List.splitOnP_ne_nil (fun c => !isWordPart c) text) with
    ⟨run, runs, parts⟩
  simp [words, List.splitOnP_cons_eq_if_modifyHead, inside, parts, digit]

/-- Only a letter starts a word. -/
theorem words_cons_of_not_start (other : Lexeme.isNameStart c = false) (text : List Char) :
    words (c :: text) = words text := by
  cases digit : Glyph.isAsciiDigit c with
  | true => exact words_cons_of_digit digit text
  | false =>
    have separates : isWordPart c = false := by
      rw [isWordPart, digit, Bool.or_false]
      exact other
    exact words_cons_of_separator separates text

theorem words_append_of_not_start {front : List Char}
    (others : ∀ c ∈ front, Lexeme.isNameStart c = false) (text : List Char) :
    words (front ++ text) = words text := by
  induction front with
  | nil => rfl
  | cons c front ih =>
    rcases List.forall_mem_cons.mp others with ⟨first, rest⟩
    rw [List.cons_append, words_cons_of_not_start first, ih rest]

theorem isAsciiDigit_of_isNameStart (start : Lexeme.isNameStart c = true) :
    Glyph.isAsciiDigit c = false := by
  rw [Lexeme.isNameStart, Bool.or_eq_true_iff, beq_iff_eq] at start
  rcases start with letter | rfl
  · by_contra digit
    rw [Glyph.isAsciiLetter_of_isAsciiDigit (Bool.eq_true_of_not_eq_false digit)] at letter
    cases letter
  · decide

theorem words_run (start : Lexeme.isNameStart c = true)
    (inside : ∀ d ∈ c :: text, isWordPart d = true) : words (c :: text) = [c :: text] := by
  rw [words, List.splitOnP_eq_singleton (by simpa using inside), List.map_singleton,
    List.dropWhile_cons_of_neg (by simp [isAsciiDigit_of_isNameStart start])]
  rfl

/-- A run that starts with a letter is a word. -/
theorem words_span (start : Lexeme.isNameStart c = true) (text : List Char) :
    words (c :: text) =
      (c :: text).takeWhile isWordPart :: words ((c :: text).dropWhile isWordPart) := by
  have first : isWordPart c = true := by
    rw [isWordPart]
    exact Bool.or_eq_true_iff.mpr (.inl start)
  have run : words ((c :: text).takeWhile isWordPart) = [(c :: text).takeWhile isWordPart] := by
    have inside := List.all_takeWhile (p := isWordPart) (l := c :: text)
    rw [List.takeWhile_cons_of_pos first] at inside ⊢
    exact words_run start (List.all_eq_true.mp inside)
  have parts := List.takeWhile_append_dropWhile (p := isWordPart) (l := c :: text)
  cases behind : (c :: text).dropWhile isWordPart with
  | nil =>
    rw [behind, List.append_nil] at parts
    rw [parts] at run ⊢
    exact run
  | cons d rest =>
    have separates : isWordPart d = false := by
      have head := List.head?_dropWhile_not isWordPart (c :: text)
      simpa [behind] using head
    rw [behind] at parts
    conv_lhs => rw [← parts]
    rw [words_append_cons separates, run, words_cons_of_separator separates]
    rfl

theorem isWordPart_of_isBlank (blank : Text.isBlank c = true) : isWordPart c = false := by
  apply Bool.eq_false_iff.mpr
  intro inside
  have visible : Text.isBlank c = false := by
    rw [isWordPart, Bool.or_eq_true_iff, Bool.or_eq_true_iff, beq_iff_eq] at inside
    rcases inside with (letter | rfl) | digit
    · exact Guard.isBlank_of_isNameStart (Bool.or_eq_true_iff.mpr (.inl letter))
    · decide
    · exact Guard.isBlank_of_isAsciiDigit digit
  rw [visible] at blank
  cases blank

theorem words_dropWhile_isBlank (text : List Char) :
    words (text.dropWhile Text.isBlank) = words text := by
  induction text with
  | nil => rfl
  | cons c text ih =>
    cases blank : Text.isBlank c with
    | false => rw [List.dropWhile_cons_of_neg (by simp [blank])]
    | true =>
      rw [List.dropWhile_cons_of_pos blank, ih,
        words_cons_of_separator (isWordPart_of_isBlank blank)]

theorem words_reverse_dropWhile_isBlank (text : List Char) :
    words (text.dropWhile Text.isBlank).reverse = words text.reverse := by
  induction text with
  | nil => rfl
  | cons c text ih =>
    cases blank : Text.isBlank c with
    | false => rw [List.dropWhile_cons_of_neg (by simp [blank])]
    | true =>
      rw [List.dropWhile_cons_of_pos blank, ih, List.reverse_cons,
        words_append_cons (isWordPart_of_isBlank blank)]
      exact (List.append_nil _).symm

theorem words_trim (text : List Char) : words (Text.trim text) = words text := by
  rw [Text.trim, Text.trimBy, words_reverse_dropWhile_isBlank, List.reverse_reverse,
    words_dropWhile_isBlank]

end Words

end Formula

/-! ## Lexemes -/

namespace Lexeme

open Formula (words)

section Cutting

variable {text rest : List Char} {number : Lexeme}

theorem not_isNameStart_of_isAsciiDigit {c : Char} (digit : Glyph.isAsciiDigit c = true) :
    isNameStart c = false := by
  apply Bool.eq_false_iff.mpr
  intro start
  rw [Formula.isAsciiDigit_of_isNameStart start] at digit
  cases digit

theorem spanDigits_parts (text : List Char) :
    (spanDigits text).1 ++ (spanDigits text).2 = text ∧
      ∀ c ∈ (spanDigits text).1, isNameStart c = false := by
  rw [spanDigits, List.span_eq_takeWhile_dropWhile]
  refine ⟨List.takeWhile_append_dropWhile, fun c member => ?_⟩
  exact not_isNameStart_of_isAsciiDigit (List.all_eq_true.mp List.all_takeWhile c member)

/-- A number takes digits and a point off the text. -/
theorem exists_front_of_number? (read : number? text = some (number, rest)) :
    (∀ word, number ≠ .word word) ∧
      ∃ front, text = front ++ rest ∧ ∀ c ∈ front, isNameStart c = false := by
  have point : isNameStart '.' = false := by decide
  rcases spanDigits_parts text with ⟨whole, digits⟩
  rw [number?] at read
  generalize spanDigits text = parts at read whole digits
  rcases parts with ⟨front, behind⟩
  dsimp only at read whole digits
  subst whole
  split at read
  · rename_i fractional
    rcases spanDigits_parts fractional with ⟨whole, fraction⟩
    split at read
    · cases read
    · rename_i split
      cases read
      rw [split] at whole fraction
      refine ⟨fun word => by simp, '.' :: _, by rw [← whole]; rfl, ?_⟩
      exact List.forall_mem_cons.mpr ⟨point, fraction⟩
  · cases read
  · rename_i fractional _
    rcases spanDigits_parts fractional with ⟨whole, fraction⟩
    cases read
    refine ⟨fun word => by simp, front ++ '.' :: (spanDigits fractional).1, ?_, ?_⟩
    · rw [List.append_assoc, List.cons_append, whole]
    · exact List.forall_mem_append.mpr ⟨digits, List.forall_mem_cons.mpr ⟨point, fraction⟩⟩
  · rename_i others _
    rcases List.forall_mem_cons.mp digits with ⟨zero, digits⟩
    cases read
    rw [List.span_eq_takeWhile_dropWhile]
    refine ⟨fun word => by simp, '0' :: others.takeWhile (· == '0'), ?_, ?_⟩
    · rw [List.cons_append, List.cons_append, ← List.append_assoc, List.takeWhile_append_dropWhile]
    · exact List.forall_mem_cons.mpr
        ⟨zero, fun c member => digits c (List.takeWhile_subset _ member)⟩
  · cases read
    exact ⟨fun word => by simp, front, rfl, digits⟩

theorem words_of_number? (read : number? text = some (number, rest)) :
    words text = words rest := by
  rcases exists_front_of_number? read with ⟨-, front, rfl, others⟩
  exact Formula.words_append_of_not_start others rest

theorem isGap_of_isNameStart {c : Char} (start : isNameStart c = true) : isGap c = false := by
  rw [isGap, Bool.or_eq_false_iff, Bool.or_eq_false_iff, beq_eq_false_iff_ne, beq_eq_false_iff_ne,
    beq_eq_false_iff_ne]
  refine ⟨⟨?_, ?_⟩, ?_⟩ <;> rintro rfl <;> cases start

/-- A word is cut off the text as a whole. -/
theorem scan_cons_of_isNameStart {c : Char} {fuel depth : Nat} (unread : number? (c :: text) = none)
    (start : isNameStart c = true) :
    scan (fuel + 1) depth (c :: text) =
      (scan fuel depth ((c :: text).dropWhile Formula.isWordPart)).map
        (word ((c :: text).takeWhile Formula.isWordPart) :: ·) := by
  have noBreak : c ≠ '\n' := by
    rintro rfl
    cases start
  have noReturn : c ≠ '\r' := by
    rintro rfl
    cases start
  have isNamePart_eq : isNamePart = Formula.isWordPart := rfl
  rw [scan, unread]
  simp only [isGap_of_isNameStart start, noBreak, noReturn, start, List.span_eq_takeWhile_dropWhile,
    isNamePart_eq, Bool.false_eq_true, if_true, if_false]

theorem breakBefore_ne_word (depth : Nat) (text word : List Char) :
    breakBefore depth text ≠ .word word := by
  unfold breakBefore
  dsimp only
  split <;> simp

/-- What one step cuts off a text: a word, a lexeme that is no word, or a gap. -/
theorem scan_cases {c : Char} {fuel depth : Nat} {lexemes : List Lexeme}
    (cut : scan (fuel + 1) depth (c :: text) = some lexemes) :
    ∃ behind following deeper, scan fuel deeper behind = some following ∧
      ((∃ front, words (c :: text) = front :: words behind ∧ lexemes = .word front :: following) ∨
        words (c :: text) = words behind ∧ (lexemes = following ∨
          ∃ first, (∀ word, first ≠ .word word) ∧ lexemes = first :: following)) := by
  cases read : number? (c :: text) with
  | some parts =>
    rcases parts with ⟨number, behind⟩
    rw [scan, read] at cut
    rcases Option.map_eq_some_iff.mp cut with ⟨following, cutRest, rfl⟩
    have noWord := (exists_front_of_number? read).1
    exact ⟨behind, following, depth, cutRest, .inr ⟨words_of_number? read, .inr ⟨_, noWord, rfl⟩⟩⟩
  | none =>
    cases start : isNameStart c with
    | true =>
      rw [scan_cons_of_isNameStart read start] at cut
      rcases Option.map_eq_some_iff.mp cut with ⟨following, cutRest, rfl⟩
      exact ⟨_, following, depth, cutRest, .inl ⟨_, Formula.words_span start text, rfl⟩⟩
    | false =>
      have same := Formula.words_cons_of_not_start start text
      rw [scan, read] at cut
      simp only [start, Bool.false_eq_true, if_false] at cut
      split at cut
      · exact ⟨text, lexemes, depth, cut, .inr ⟨same, .inl rfl⟩⟩
      · -- All other characters are lexemes of their own, if they are allowed.
        have single : ∀ {first deeper}, (∀ word, first ≠ .word word) →
            (scan fuel deeper text).map (first :: ·) = some lexemes →
            ∃ following, scan fuel deeper text = some following ∧
              ∃ first, (∀ word, first ≠ .word word) ∧ lexemes = first :: following := by
          intro first deeper noWord cut
          rcases Option.map_eq_some_iff.mp cut with ⟨following, cutRest, rfl⟩
          exact ⟨following, cutRest, first, noWord, rfl⟩
        have found : ∃ deeper following, scan fuel deeper text = some following ∧
            ∃ first, (∀ word, first ≠ .word word) ∧ lexemes = first :: following := by
          split at cut
          · exact ⟨_, single (breakBefore_ne_word depth text) cut⟩
          · split at cut
            · split at cut
              · cases cut
              · exact ⟨_, single (by simp) cut⟩
            · split at cut
              · exact ⟨_, single (by simp) cut⟩
              · cases cut
        rcases found with ⟨deeper, following, cutRest, first⟩
        exact ⟨text, following, deeper, cutRest, .inr ⟨same, .inr first⟩⟩

/-- The words that a text is cut into are words of the text. -/
theorem mem_words_of_scan {fuel depth : Nat} {lexemes : List Lexeme}
    (cut : scan fuel depth text = some lexemes) :
    ∀ word, .word word ∈ lexemes → word ∈ words text := by
  induction fuel generalizing depth text lexemes with
  | zero =>
    cases text <;> cases cut
    simp
  | succ fuel ih =>
    cases text with
    | nil =>
      cases cut
      simp
    | cons c text =>
      intro word member
      rcases scan_cases cut with ⟨behind, following, deeper, cutRest, inFront | ⟨same, noWord⟩⟩
      · rcases inFront with ⟨front, split, rfl⟩
        rw [split]
        rcases List.mem_cons.mp member with same | member
        · cases same
          exact List.mem_cons_self
        · exact List.mem_cons_of_mem _ (ih cutRest word member)
      · rw [same]
        rcases noWord with rfl | ⟨first, noWord, rfl⟩
        · exact ih cutRest word member
        · rcases List.mem_cons.mp member with same | member
          · exact absurd same.symm (noWord word)
          · exact ih cutRest word member

theorem mem_words_of_ofText? {lexemes : List Lexeme} (cut : ofText? text = some lexemes) :
    ∀ word, .word word ∈ lexemes → word ∈ words text := by
  rw [← Formula.words_trim]
  exact mem_words_of_scan cut

end Cutting

end Lexeme

/-! ## Tokens -/

namespace Token

section Outsiders

variable {P : List Char → Prop} {bare : Bool} {word : List Char} {lexemes : List Lexeme}
  {tokens : List Token}

theorem isKnown_of_ofWord {text : List Char} {following : List Lexeme}
    (outside : word ∈ (ofWord bare text following).outsider?) :
    word = text ∧ isKnown text = false := by
  unfold ofWord at outside
  split at outside
  · cases outside
  · split at outside
    · cases outside
    · rename_i unknown
      have unknown := Bool.eq_false_iff.mpr unknown
      split at outside
      · cases outside
      · split at outside <;> cases outside <;> exact ⟨rfl, unknown⟩

/-- The words outside the vocabulary that tokens name something by are lexemes. -/
theorem holds_of_join (held : ∀ word, .word word ∈ lexemes → isKnown word = false → P word)
    (joined : join bare lexemes = some tokens) :
    ∀ token ∈ tokens, ∀ word ∈ token.outsider?, P word := by
  -- A token in front of the others has its words in front of theirs.
  have step : ∀ {bare : Bool} {front rest : List Lexeme} {first : Token} {tokens : List Token},
      (∀ word, .word word ∈ front ++ rest → isKnown word = false → P word) →
      (∀ word ∈ first.outsider?, P word) →
      (∀ {others}, (∀ word, .word word ∈ rest → isKnown word = false → P word) →
        join bare rest = some others → ∀ token ∈ others, ∀ word ∈ token.outsider?, P word) →
      (join bare rest).map (first :: ·) = some tokens →
        ∀ token ∈ tokens, ∀ word ∈ token.outsider?, P word := by
    intro bare front rest first tokens held head tail joined
    rcases Option.map_eq_some_iff.mp joined with ⟨others, following, rfl⟩
    have behind := fun word member => held word (List.mem_append_right front member)
    exact List.forall_mem_cons.mpr ⟨head, tail behind following⟩
  induction bare, lexemes using join.induct generalizing tokens with
  | case1 =>
    cases joined
    simp
  | case2 bare rest ih => exact ih (fun word member => held word (by simp [member])) joined
  | case3 => cases joined
  | case6 bare text rest ih =>
    refine @step bare [.word text] rest _ _ held (fun word outside => ?_) ih joined
    rcases isKnown_of_ofWord outside with ⟨rfl, unknown⟩
    exact held word List.mem_cons_self unknown
  | case7 bare rest ih => exact @step _ [_, _] rest _ _ held (by simp [outsider?]) ih joined
  | case8 bare rest alone ih =>
    rw [join] at joined
    · exact @step _ [_] rest _ _ held (by simp [outsider?]) ih joined
    · exact alone
  | case9 bare rest ih => exact @step _ [_, _] rest _ _ held (by simp [outsider?]) ih joined
  | case10 bare rest alone ih =>
    rw [join] at joined
    · exact @step _ [_] rest _ _ held (by simp [outsider?]) ih joined
    · exact alone
  | case11 bare rest ih => exact @step _ [_, _, _] rest _ _ held (by simp [outsider?]) ih joined
  | case12 bare rest alone ih =>
    rw [join] at joined
    · exact @step _ [_] rest _ _ held (by simp [outsider?]) ih joined
    · exact alone
  | case17 =>
    rw [join] at joined
    · cases joined
    all_goals assumption
  | _ => exact @step _ [_] _ _ _ held (by simp [outsider?]) ‹_› joined

theorem word_mem_of_expandPowers (member : .word word ∈ expandPowers lexemes) :
    .word word ∈ lexemes := by
  induction lexemes using expandPowers.induct with
  | case1 => exact member
  | case2 rest ih =>
    rw [expandPowers] at member
    simp only [List.mem_cons, reduceCtorEq, false_or] at member ⊢
    exact ih member
  | case3 lexeme rest other ih =>
    rw [expandPowers] at member
    · rcases List.mem_cons.mp member with same | member
      · exact List.mem_cons.mpr (.inl same)
      · exact List.mem_cons_of_mem _ (ih member)
    · exact other

theorem word_mem_of_enclose (member : .word word ∈ enclose lexemes) : .word word ∈ lexemes := by
  rcases List.mem_map.mp member with ⟨lexeme, here, same⟩
  split at same
  · cases same
  · exact same ▸ here

/-- The words outside the vocabulary are lexemes, except for the function that `lambda`
stands for. -/
theorem holds_of_ofLexemes? (held : ∀ word, .word word ∈ lexemes → isKnown word = false → P word)
    (behindLambda : .word lambdaWord ∈ lexemes → P lambdaFunction)
    (joined : ofLexemes? lexemes = some tokens) :
    ∀ token ∈ tokens, ∀ word ∈ token.outsider?, P word := by
  have joinedAll : ∀ {tokens}, join false (expandPowers lexemes) = some tokens →
      ∀ token ∈ tokens, ∀ word ∈ token.outsider?, P word :=
    holds_of_join fun word member => held word (word_mem_of_expandPowers member)
  unfold ofLexemes? at joined
  split at joined
  · rename_i first next rest
    split at joined
    · subst first
      split at joined
      · cases joined
      · rcases Option.bind_eq_some_iff.mp joined with ⟨argument, joinedArgument, joined⟩
        cases joined
        have inside := holds_of_join (fun word member => held word (List.mem_cons_of_mem _
          (word_mem_of_enclose (word_mem_of_expandPowers member)))) joinedArgument
        intro token occurs word outside
        simp only [List.mem_cons, List.mem_append, List.not_mem_nil, or_false] at occurs
        rcases occurs with rfl | rfl | rfl | occurs | rfl | rfl
        · cases outside
          exact behindLambda List.mem_cons_self
        · cases outside
        · cases outside
        · exact inside token occurs word outside
        · cases outside
        · cases outside
    · exact joinedAll joined
  · exact joinedAll joined

theorem not_mem_names_of_isKnown (outside : isKnown word = false) : word ∉ Vocabulary.names := by
  intro named
  rcases List.mem_append.mp named with constant | called
  · have known : word ∈ constants := constant
    simp [isKnown, known] at outside
  · rcases List.mem_map.mp called with ⟨f, -, rfl⟩
    simp [isKnown, Builtin.ofSpelling?_spelling] at outside

/-- The words outside the vocabulary that tokens name something by are mentioned by the
text. -/
theorem mentions_of_ofText? {text : List Char} (cut : ofText? text = some tokens) :
    ∀ token ∈ tokens, ∀ word ∈ token.outsider?, Formula.Mentions text word := by
  rcases Option.bind_eq_some_iff.mp cut with ⟨lexemes, cutLexemes, cut⟩
  rcases Option.bind_eq_some_iff.mp cut with ⟨all, joined, nested⟩
  split at nested <;> cases nested
  have written := Lexeme.mem_words_of_ofText? cutLexemes
  refine holds_of_ofLexemes? ?_ ?_ joined
  · intro word member unknown
    exact .inl ⟨written word member, not_mem_names_of_isKnown unknown⟩
  · intro member
    exact .inr ⟨rfl, written _ member⟩

end Outsiders

end Token

/-! ## The interpreter that runs -/

namespace Formula

variable {text : List Char} {t : Term}

/-- The names of the value of a text are mentioned by the text. -/
theorem within_of_read (read : standard.read text = .ok (some t)) :
    t.Within (Mentions text) := by
  have valued : valueOf text = .ok (.term t) := by
    change termOf (valueOf text) = _ at read
    unfold termOf at read
    split at read <;> cases read
    assumption
  rw [valueOf] at valued
  split at valued
  · cases valued
  · rename_i formula found
    rcases Option.bind_eq_some_iff.mp found with ⟨tokens, cut, tree⟩
    refine within_evaluate (a := .term t) ?_ valued
    intro token occurs
    rw [tokens_of_ofTokens? tree] at occurs
    exact Token.mentions_of_ofText? cut token (List.mem_filter.mp occurs).1

theorem resolvesNames_standard : standard.ResolvesNames where
  symbols _ read _ symbol := Term.holds_of_mem_symbols (within_of_read read) symbol
  calls _ read _ called := Term.holds_of_mem_callNames (within_of_read read) called

end Formula
end FormulaLine

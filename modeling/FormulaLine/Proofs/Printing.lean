import Mathlib.Algebra.Group.Nat.Defs
import Mathlib.Tactic.SplitIfs
import FormulaLine.Command.Reply

namespace FormulaLine

/-!
# What is printed can be read back

A text is printed between quotation marks, with some of its characters escaped.  Each
character can be read off what is printed, together with all that follows it, and none
begins with the quotation mark that ends the text.  From characters this carries over
to texts, and from texts to lists of them: a printed list tells its items and where it
ends.
-/

namespace Text

/-! ## Ways of writing -/

/-- What is written for a value tells the value and what is written behind it, and does
not begin with the character at which the writing stops. -/
structure Readable {α : Type} (write : α → List Char) (stop : Char) : Prop where
  inj : ∀ {a b rest rest'}, write a ++ rest = write b ++ rest' → a = b ∧ rest = rest'
  head : ∀ {a rest rest'}, write a ++ rest ≠ stop :: rest'

theorem Readable.flatMap {α : Type} {write : α → List Char} {stop : Char}
    (readable : Readable write stop) {as bs : List α} {rest rest' : List Char}
    (same : as.flatMap write ++ stop :: rest = bs.flatMap write ++ stop :: rest') :
    as = bs ∧ rest = rest' := by
  induction as generalizing bs with
  | nil =>
      cases bs with
      | nil => exact ⟨rfl, (List.cons.inj same).2⟩
      | cons b bs =>
          rw [List.flatMap_cons, List.append_assoc] at same
          exact absurd same.symm readable.head
  | cons a as ih =>
      rw [List.flatMap_cons, List.append_assoc] at same
      cases bs with
      | nil => exact absurd same readable.head
      | cons b bs =>
          rw [List.flatMap_cons, List.append_assoc] at same
          rcases readable.inj same with ⟨rfl, behind⟩
          rcases ih behind with ⟨rfl, rest⟩
          exact ⟨rfl, rest⟩

/-! ## Escaped characters -/

/-- The value of a hexadecimal digit in lower case. -/
def hexDigitValue (digit : Char) : Nat :=
  if digit.toNat < 'a'.toNat then digit.toNat - '0'.toNat else digit.toNat - 'a'.toNat + 10

def hexValue (digits : List Char) : Nat :=
  digits.foldl (fun n digit => 16 * n + hexDigitValue digit) 0

/-- The letters that stand for control characters behind a backslash. -/
def controls : List (Char × Char) :=
  [('n', '\n'), ('r', '\r'), ('t', '\t'), ('b', '\x08'), ('f', '\x0c')]

/-- The letters that announce a code point, with the number of its digits. -/
def codeWidths : List (Char × Nat) := [('x', 2), ('u', 4), ('U', 8)]

/-- Reads a character that may be escaped, and what follows it. -/
def unescape? : List Char → Option (Char × List Char)
  | '\\' :: c :: rest =>
    match controls.lookup c, codeWidths.lookup c with
    | some control, _ => some (control, rest)
    | none, some width => some (Char.ofNat (hexValue (rest.take width)), rest.drop width)
    | none, none => some (c, rest)
  | c :: rest => some (c, rest)
  | [] => none

section Escaped

variable {c : Char} {rest : List Char}

theorem hexDigitValue_hexDigit {n : Nat} (digit : n < 16) : hexDigitValue (hexDigit n) = n := by
  decide +revert

theorem length_hexDigits (width n : Nat) : (hexDigits width n).length = width := by
  induction width generalizing n with
  | zero => rfl
  | succ width ih => rw [hexDigits, List.length_append, ih, List.length_singleton]

theorem hexValue_hexDigits {width n : Nat} (short : n < 16 ^ width) :
    hexValue (hexDigits width n) = n := by
  induction width generalizing n with
  | zero => rw [Nat.lt_one_iff.mp short, hexDigits, hexValue, List.foldl_nil]
  | succ width ih =>
      have higher : n / 16 < 16 ^ width := by
        rw [Nat.div_lt_iff_lt_mul (by decide), ← Nat.pow_succ]
        exact short
      have digit := hexDigitValue_hexDigit (Nat.mod_lt n (by decide : 16 > 0))
      rw [hexDigits, hexValue, List.foldl_append, List.foldl_cons, List.foldl_nil, digit,
        ← hexValue, ih higher, Nat.div_add_mod]

theorem unescape?_of_ne (plain : c ≠ '\\') : unescape? (c :: rest) = some (c, rest) := by
  rw [unescape?]
  rintro d behind rfl
  exact absurd rfl plain

/-- A code point of the announced width is read back. -/
theorem unescape?_code {mark : Char} {width : Nat} (noControl : controls.lookup mark = none)
    (announced : codeWidths.lookup mark = some width) (short : c.toNat < 16 ^ width) :
    unescape? ('\\' :: mark :: (hexDigits width c.toNat ++ rest)) = some (c, rest) := by
  have whole := length_hexDigits width c.toNat
  rw [unescape?, noControl, announced]
  simp only [List.take_left' whole, List.drop_left' whole, hexValue_hexDigits short,
    Char.ofNat_toNat]

/-- Escapes make readable texts if each begins with a backslash or is a character that
stands for itself, and is read back. -/
theorem readable_of_unescape? {escape : Char → List Char} {mark : Char} (other : mark ≠ '\\')
    (back : ∀ c rest, unescape? (escape c ++ rest) = some (c, rest))
    (front : ∀ c, (∃ code, escape c = '\\' :: code) ∨ escape c = [c] ∧ c ≠ mark) :
    Readable escape mark where
  inj same := by
    have read := congrArg unescape? same
    rw [back, back] at read
    cases read
    exact ⟨rfl, rfl⟩
  head {c rest rest'} same := by
    rcases front c with ⟨code, escaped⟩ | ⟨plain, different⟩
    · rw [escaped] at same
      exact other (List.cons.inj same).1.symm
    · rw [plain] at same
      exact different (List.cons.inj same).1

/-- The escapes inside either quotation mark. -/
theorem readable_escapeChar {mark : Char} (quotation : mark = '\'' ∨ mark = '"') :
    Readable (escapeChar mark) mark := by
  refine readable_of_unescape? ?_ (fun c rest => ?_) fun c => ?_
  · rcases quotation with rfl | rfl <;> decide
  · rw [escapeChar]
    split_ifs with escaped line back tab printable short medium
    · rcases escaped with rfl | rfl
      · rcases quotation with rfl | rfl <;> rfl
      · rfl
    · rw [line]
      rfl
    · rw [back]
      rfl
    · rw [tab]
      rfl
    · exact unescape?_of_ne fun same => escaped (.inr same)
    · exact unescape?_code rfl rfl short
    · exact unescape?_code rfl rfl medium
    · exact unescape?_code rfl rfl (Nat.lt_of_lt_of_eq c.val.toNat_lt (by decide))
  · rw [escapeChar]
    split_ifs with escaped line back tab printable
    any_goals exact .inl ⟨_, rfl⟩
    exact .inr ⟨rfl, fun same => escaped (.inl same)⟩

end Escaped

/-! ## Quoted texts and lists of them -/

theorem quoteFor_eq (text : List Char) : quoteFor text = '\'' ∨ quoteFor text = '"' := by
  rw [quoteFor]
  split
  · exact .inr rfl
  · exact .inl rfl

/-- A quoted text tells its quotation mark, and so what is escaped in it. -/
theorem readable_quote {stop : Char} (single : stop ≠ '\'') (double : stop ≠ '"') :
    Readable quote stop where
  inj {a b rest rest'} same := by
    simp only [quote, List.cons_append, List.append_assoc, List.nil_append] at same
    rcases List.cons.inj same with ⟨mark, inside⟩
    rw [mark] at inside
    exact (readable_escapeChar (quoteFor_eq b)).flatMap inside
  head {a rest rest'} same := by
    rcases quoteFor_eq a with mark | mark <;> rw [quote, mark] at same
    · exact single (List.cons.inj same).1.symm
    · exact double (List.cons.inj same).1.symm

section Lists

variable {α : Type} {write : α → List Char} {stop : Char}

theorem intercalate_cons_map (separator : List Char) (a : α) (as : List α) :
    separator.intercalate ((a :: as).map write) =
      write a ++ as.flatMap fun b => separator ++ write b := by
  induction as generalizing a with
  | nil => simp
  | cons b as ih =>
      rw [List.map_cons, List.map_cons, List.intercalate_cons_cons, ← List.map_cons, ih b]
      simp

/-- Behind a separator that does not begin as the end does. -/
theorem Readable.behind (readable : Readable write stop) {first : Char} (other : first ≠ stop)
    (separator : List Char) : Readable (fun a => first :: separator ++ write a) stop where
  inj same := by
    rw [List.append_assoc, List.append_assoc] at same
    exact readable.inj (List.append_cancel_left same)
  head same := other (List.cons.inj same).1

/-- Values with separators between them tell themselves and where they end. -/
theorem Readable.intercalate (readable : Readable write stop) {first : Char}
    (other : first ≠ stop) (separator : List Char) {as bs : List α} {rest rest' : List Char}
    (same : (first :: separator).intercalate (as.map write) ++ stop :: rest =
      (first :: separator).intercalate (bs.map write) ++ stop :: rest') :
    as = bs ∧ rest = rest' := by
  cases as with
  | nil =>
      cases bs with
      | nil => exact ⟨rfl, (List.cons.inj same).2⟩
      | cons b bs =>
          rw [intercalate_cons_map, List.append_assoc] at same
          exact absurd same.symm readable.head
  | cons a as =>
      rw [intercalate_cons_map, List.append_assoc] at same
      cases bs with
      | nil => exact absurd same readable.head
      | cons b bs =>
          rw [intercalate_cons_map, List.append_assoc] at same
          rcases readable.inj same with ⟨rfl, behind⟩
          rcases (readable.behind other separator).flatMap behind with ⟨rfl, rest⟩
          exact ⟨rfl, rest⟩

end Lists

/-- A quoted list tells its items and where it ends. -/
theorem quoteList_inj {as bs : List (List Char)} {rest rest' : List Char}
    (same : quoteList as ++ rest = quoteList bs ++ rest') : as = bs ∧ rest = rest' := by
  have readable : Readable quote ']' := readable_quote (by decide) (by decide)
  simp only [quoteList, quoteItems, List.cons_append, List.append_assoc, List.nil_append,
    List.cons.injEq, true_and] at same
  exact readable.intercalate (by decide) _ same

end Text

namespace Json

theorem readable_escapeChar : Text.Readable escapeChar '"' := by
  refine Text.readable_of_unescape? (by decide) (fun c rest => ?_) fun c => ?_
  · rw [escapeChar]
    split_ifs with mark slash line back tab erase feed control
    · rw [mark]
      rfl
    · rw [slash]
      rfl
    · rw [line]
      rfl
    · rw [back]
      rfl
    · rw [tab]
      rfl
    · rw [erase]
      rfl
    · rw [feed]
      rfl
    · exact Text.unescape?_code rfl rfl (Nat.lt_trans control (by decide))
    · exact Text.unescape?_of_ne slash
  · rw [escapeChar]
    split_ifs with mark
    any_goals exact .inl ⟨_, rfl⟩
    exact .inr ⟨rfl, mark⟩

/-- A quoted JSON text. -/
theorem readable_quoteText {stop : Char} (other : stop ≠ '"') : Text.Readable quoteText stop where
  inj same := by
    simp only [quoteText, List.cons_append, List.append_assoc, List.nil_append, List.cons.injEq,
      true_and] at same
    exact readable_escapeChar.flatMap same
  head same := other (List.cons.inj same).1.symm

/-- Texts as a list in a record, one on each line. -/
def textLines : List (List Char) → List Char
  | [] => "[]".toList
  | texts =>
    "[\n    ".toList ++ ",\n    ".toList.intercalate (texts.map quoteText) ++ "\n  ]".toList

theorem renderItems_text (level : Nat) (texts : List (List Char)) :
    renderItems level (texts.map .text) =
      texts.flatMap fun text => ',' :: newline level ++ quoteText text := by
  induction texts with
  | nil => rfl
  | cons text texts ih =>
      rw [List.map_cons, renderItems, ih, render, List.flatMap_cons]
      simp

theorem render_texts (texts : List (List Char)) :
    render 1 (.array (texts.map .text)) = textLines texts := by
  cases texts with
  | nil => rfl
  | cons text texts =>
      rw [textLines, Text.intercalate_cons_map, List.map_cons, render, renderItems_text, render]
      · simp [newline]
      · exact List.cons_ne_nil text texts

theorem textLines_inj {as bs : List (List Char)} {rest rest' : List Char}
    (same : textLines as ++ rest = textLines bs ++ rest') : as = bs ∧ rest = rest' := by
  have readable : Text.Readable quoteText '\n' := readable_quoteText (by decide)
  cases as with
  | nil =>
      cases bs with
      | nil => exact ⟨rfl, List.append_cancel_left same⟩
      | cons b bs => simp [textLines] at same
  | cons a as =>
      cases bs with
      | nil => simp [textLines] at same
      | cons b bs =>
          simp only [textLines, List.append_assoc] at same
          have items := List.append_cancel_left same
          rcases readable.intercalate (by decide) _ items with ⟨texts, behind⟩
          exact ⟨texts, List.append_cancel_left behind⟩

end Json

namespace Command

/-! ## Records -/

/-- A record for people: tokens, the formula with its multiplications written, and the
hint, each on a line of its own. -/
def plainRecord (tokens : List (List Char)) (processed hint : List Char) : List Char :=
  "tokens: ".toList ++ Text.quoteList tokens ++ "\nprocessed: ".toList ++ processed ++
    "\nhint: ".toList ++ hint ++ "\n".toList

/-- The same record as a JSON object. -/
def jsonRecord (tokens : List (List Char)) (processed hint : List Char) : List Char :=
  "\x7b\n  \"tokens\": ".toList ++ Json.textLines tokens ++
    ",\n  \"processed\": ".toList ++ Json.quoteText processed ++
    ",\n  \"hint\": ".toList ++ Json.quoteText hint ++ "\n\x7d\n".toList

/-- The text of a record. -/
def recordText : Format → List (List Char) → List Char → List Char → List Char
  | .human => plainRecord
  | .json => jsonRecord

theorem print_fields (format : Format) (tokens : List (List Char)) (processed hint : List Char) :
    (Reply.fields [("tokens".toList, .texts tokens), ("processed".toList, .text processed),
      ("hint".toList, .text hint)]).print format = recordText format tokens processed hint := by
  cases format with
  | human =>
      change _ = plainRecord tokens processed hint
      unfold plainRecord
      simp [Reply.print, Reply.plain, Reply.plainLine, Field.plain]
  | json =>
      change _ = jsonRecord tokens processed hint
      have tokensName : Json.quoteText "tokens".toList = "\"tokens\"".toList := by decide
      have processedName : Json.quoteText "processed".toList = "\"processed\"".toList := by decide
      have hintName : Json.quoteText "hint".toList = "\"hint\"".toList := by decide
      unfold jsonRecord
      simp only [Reply.print, Reply.members, List.map_cons, List.map_nil, Field.json, Json.render,
        Json.renderMembers, tokensName, processedName, hintName]
      simp [Json.newline, Json.render_texts]

/-- A printed record tells its tokens and its hint; the formula between them is told as
well, or goes with the tokens. -/
theorem recordText_inj {format : Format} {tokens tokens' : List (List Char)}
    {processed processed' hint hint' : List Char}
    (goes : tokens = tokens' → processed = processed')
    (same : recordText format tokens processed hint =
      recordText format tokens' processed' hint') : tokens = tokens' ∧ hint = hint' := by
  cases format with
  | human =>
      change plainRecord _ _ _ = plainRecord _ _ _ at same
      unfold plainRecord at same
      simp only [List.append_assoc, List.append_cancel_left_eq] at same
      rcases Text.quoteList_inj same with ⟨equal, behind⟩
      rw [goes equal, List.append_cancel_left_eq, List.append_cancel_left_eq,
        List.append_cancel_left_eq, List.append_cancel_right_eq] at behind
      exact ⟨equal, behind⟩
  | json =>
      have readable : Text.Readable Json.quoteText '\n' := Json.readable_quoteText (by decide)
      change jsonRecord _ _ _ = jsonRecord _ _ _ at same
      unfold jsonRecord at same
      simp only [List.append_assoc, List.append_cancel_left_eq] at same
      rcases Json.textLines_inj same with ⟨equal, behind⟩
      rw [goes equal, List.append_cancel_left_eq, List.append_cancel_left_eq,
        List.append_cancel_left_eq] at behind
      exact ⟨equal, (readable.inj behind).1⟩

end Command
end FormulaLine

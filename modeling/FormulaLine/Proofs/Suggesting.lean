import FormulaLine.Proofs.Calls
import FormulaLine.Proofs.CompletionTable
import FormulaLine.Suggest

namespace FormulaLine

/-!
# Completing the last token

The hint of a line is looked up by its last token.  Two facts make the look-up
right for every line.  Behind anything that can be multiplied, what has been typed
of a name is a token of its own, whatever masks the line before it has left.  And
a token starts from a fresh class: the class of its last character is the one that
the token has by itself.  What completes a token therefore goes on as it would at
the start of a line, and stays in the token.

The exponential function is kept apart in both.  It is hidden behind a placeholder
that starts no factor, and the first letter of its name is a token of its own.
-/

namespace Split

open GlyphClass

/-! ## Parts of a call -/

theorem stays_callOf {f : Builtin} (other : f ≠ .exp) : Stays neutral (callOf f) := by
  rcases splitAfter_callOf other with ⟨c, rest, call, -, notMarker, whole⟩
  rw [call, stays_cons_iff, neutral_after]
  exact ⟨startsFactor_neutral _ notMarker _, whole⟩

/-- The call shows none of the rewritten spellings, and nothing that stands for
one. -/
structure Untouched (text : List Char) : Prop where
  constants : ¬ "pi".toList <:+: text
  powers : ¬ "**".toList <:+: text
  hidden : ¬ "exp".toList <:+: text
  constant : 'π' ∉ text
  power : '^' ∉ text
  placeholder : Vocabulary.expPlaceholder ∉ text

theorem untouched_callOf {f : Builtin} (other : f ≠ .exp) : Untouched (callOf f) := by
  cases f <;> first
    | exact absurd rfl other
    | exact ⟨by decide, by decide, by decide, by decide, by decide, by decide⟩

namespace Untouched

variable {text part : List Char}

theorem part_of (untouched : Untouched text) (inside : part <:+: text) : Untouched part where
  constants := fun found => untouched.constants (found.trans inside)
  powers := fun found => untouched.powers (found.trans inside)
  hidden := fun found => untouched.hidden (found.trans inside)
  constant := fun found => untouched.constant (inside.subset found)
  power := fun found => untouched.power (inside.subset found)
  placeholder := fun found => untouched.placeholder (inside.subset found)

theorem substitute_eq (untouched : Untouched text) : substitute text = text :=
  substitute_eq_self untouched.constants untouched.powers untouched.hidden

theorem restore_eq (untouched : Untouched text) : restore text = text :=
  restore_eq_self untouched.placeholder

theorem suffix (untouched : Untouched part) (found : part <:+ substitute text) : part <:+ text :=
  suffix_of_suffix_substitute untouched.constant untouched.power untouched.placeholder found

end Untouched

/-! ## A name that is being typed -/

/-- What has been typed of the name of a function other than the exponential
function: some of it or all of it. -/
structure Typed (typed : List Char) : Prop where
  nonempty : typed ≠ []
  starts : ∃ f : Builtin, f ≠ .exp ∧ typed <+: f.spelling

namespace Typed

variable {typed : List Char}

theorem prefix_callOf (name : Typed typed) : ∃ f : Builtin, f ≠ .exp ∧ typed <+: callOf f := by
  rcases name.starts with ⟨f, other, here⟩
  exact ⟨f, other, here.trans (List.prefix_append _ _)⟩

theorem untouched (name : Typed typed) : Untouched typed := by
  rcases name.prefix_callOf with ⟨f, other, here⟩
  exact (untouched_callOf other).part_of here.isInfix

theorem stays (name : Typed typed) : Stays neutral typed := by
  rcases name.prefix_callOf with ⟨f, other, rest, parts⟩
  exact ((stays_append_iff neutral typed rest).mp (parts ▸ stays_callOf other)).1

theorem apart (name : Typed typed) : ∀ c ∈ finishing, ¬ [c] <+: typed := by
  rcases name.prefix_callOf with ⟨f, -, here⟩
  exact fun c member found => not_prefix_callOf f c member (found.trans here)

/-- The first letter, behind which the rest stays. -/
theorem exists_letter (name : Typed typed) :
    ∃ c rest, typed = c :: rest ∧ Glyph.isAsciiLetter c = true ∧ c ≠ Vocabulary.marker ∧
      Stays (first [c]) rest := by
  rcases name.prefix_callOf with ⟨f, other, here⟩
  rcases splitAfter_callOf other with ⟨c, rest, call, letter, notMarker, -⟩
  rcases List.exists_cons_of_ne_nil name.nonempty with ⟨d, more, rfl⟩
  rw [call] at here
  have same : d = c := (List.cons_prefix_cons.mp here).1
  subst same
  have whole := (stays_cons_iff neutral d more).mp name.stays
  rw [neutral_after] at whole
  exact ⟨d, more, rfl, letter, notMarker, whole.2⟩

end Typed

theorem FactorEnd.splitAfter_typed {k : GlyphClass} (factorEnd : FactorEnd k) {typed : List Char}
    (name : Typed typed) :
    splitAfter .multiplication k (glyphs typed) = ([], [typed]) := by
  rcases name.exists_letter with ⟨c, rest, rfl, letter, notMarker, whole⟩
  have current : k.after [c] = first [c] := factorEnd.releases.after_eq_first c
  rw [glyphs_cons, splitAfter_of_starts (factorEnd.startsFactor_letter letter .multiplication),
    current, whole, written_of_ne notMarker, List.singleton_append]

/-- A factor may be typed behind the text: the text is empty, or ends a factor, or
ends with a marker that is not its first character. -/
def AdmitsFactor (text : List Char) : Prop :=
  text = [] ∨ EndsFactor text ∨
    (2 ≤ (substitute text).length ∧ (substitute text).getLast? = some Vocabulary.marker)

/-- Behind a marker the class of the last character is neutral. -/
theorem afterAll_of_getLast?_marker {source : List Char} (previous : GlyphClass)
    (last : source.getLast? = some Vocabulary.marker) : previous.afterAll source = neutral := by
  rcases List.getLast?_eq_some_iff.mp last with ⟨before, rfl⟩
  rw [afterAll_concat]
  exact after_marker _

section Behind

variable {text typed : List Char}

/-- Where a factor may be typed, what has been typed of a name is the last token. -/
theorem getLast?_split_append_typed (admits : AdmitsFactor text) (name : Typed typed) :
    (split .multiplication (text ++ typed)).getLast? = some typed := by
  have shownName := name.untouched.restore_eq
  rcases admits with rfl | ends | ⟨long, marker⟩
  · rw [List.nil_append, split, name.untouched.substitute_eq,
      splitGlyphs_of_stays name.nonempty name.stays, List.map_singleton, shownName]
    rfl
  · rw [split_append .multiplication ends.ne_nil name.apart, name.untouched.substitute_eq,
      ends.factorEnd.splitAfter_typed name, restoreBehind, List.map_singleton, shownName]
    have opened := extendTokens_opened (split_ne_nil .multiplication ends.ne_nil) [typed]
    rw [show restore [] = [] from rfl, opened, List.getLast?_concat]
  · have nonempty : text ≠ [] := by
      rintro rfl
      cases marker
    have emptyLast := (split_getLast?_eq_nil_iff .multiplication text).mpr ⟨long, marker⟩
    rcases List.getLast?_eq_some_iff.mp emptyLast with ⟨before, tokens⟩
    have substituted : substitute (text ++ typed) = substitute text ++ typed := by
      rw [substitute_append name.apart, name.untouched.substitute_eq]
    have stays : Stays (neutral.afterAll (substitute text)) typed := by
      rw [afterAll_of_getLast?_marker neutral marker]
      exact name.stays
    rw [split_append_of_stays nonempty substituted stays, tokens, extendTokens_concat, shownName,
      List.nil_append, List.getLast?_concat]

end Behind

/-! ## Where a token ends -/

/-- How a text ends with its last token.  The token stands at its end, and but for
its masks the text before it has left no trace in the class of the last character.
By itself the token is one token, unless it shows a marker. -/
structure EndsWith (text token : List Char) : Prop where
  suffix : token <:+ text
  afterAll_eq : neutral.afterAll text = neutral.afterAll token
  stays : Vocabulary.marker ∈ token ∨ Stays neutral token

/-- A character that starts a factor has the class that it has by itself.  A marker
has the class of an empty text. -/
theorem after_eq_afterAll_written {previous : GlyphClass} {p c : Char}
    (describes : previous.Describes p)
    (starts : startsFactor .multiplication [c] (previous.after [c]) previous = true) :
    previous.after [c] = neutral.afterAll (written [c]) := by
  by_cases marker : c = Vocabulary.marker
  · subst marker
    exact after_marker _
  · rw [written_of_ne marker]
    exact after_eq_first_of_startsFactor describes starts

theorem stays_written (c : Char) : Stays neutral (written [c]) := by
  by_cases marker : c = Vocabulary.marker
  · subst marker
    exact stays_nil neutral
  · rw [written_of_ne marker]
    exact stays_neutral_singleton marker

theorem written_append_suffix (c : Char) (rest : List Char) : written [c] ++ rest <:+ c :: rest := by
  by_cases marker : c = Vocabulary.marker
  · subst marker
    exact List.suffix_cons _ rest
  · rw [written_of_ne marker]
    exact List.suffix_rfl

/-- The open token, with `before` already in it, and the tokens behind it: the
last of them ends the text. -/
theorem endsWith_of_splitAfter {before text token : List Char} {p : Char}
    (describes : (neutral.afterAll before).Describes p)
    (whole : Vocabulary.marker ∈ before ∨ Stays neutral before)
    (last : ((before ++
        (splitAfter .multiplication (neutral.afterAll before) (glyphs text)).1) ::
      (splitAfter .multiplication (neutral.afterAll before) (glyphs text)).2).getLast? =
        some token) :
    EndsWith (before ++ text) token := by
  induction text generalizing before p with
  | nil =>
      have same : before = token := by simpa [glyphs, splitAfter] using last
      rw [List.append_nil, same]
      exact ⟨List.suffix_rfl, rfl, same ▸ whole⟩
  | cons c rest ih =>
      have current := describes_after (neutral.afterAll before) c
      rw [glyphs_cons] at last
      cases starts : startsFactor .multiplication [c] ((neutral.afterAll before).after [c])
          (neutral.afterAll before) with
      | true =>
          -- A new token starts here, and its first character has a fresh class.
          have fresh := after_eq_afterAll_written describes starts
          rw [splitAfter_of_starts starts, List.getLast?_cons_cons, fresh] at last
          rcases ih (fresh ▸ current) (Or.inr (stays_written c)) last with
            ⟨suffix, afterAll_eq, stays⟩
          refine ⟨suffix.trans ?_, ?_, stays⟩
          · exact (written_append_suffix c rest).trans (List.suffix_append before _)
          · rw [← afterAll_eq, afterAll_append, afterAll_append, ← fresh, afterAll_cons]
      | false =>
          have extended : neutral.afterAll (before ++ [c]) = (neutral.afterAll before).after [c] :=
            afterAll_concat neutral before c
          have wholeNext : Vocabulary.marker ∈ before ++ [c] ∨ Stays neutral (before ++ [c]) := by
            rcases whole with marker | stays
            · exact Or.inl (List.mem_append_left [c] marker)
            · exact Or.inr ((stays_append_iff neutral before [c]).mpr
                ⟨stays, (stays_cons_iff _ c []).mpr ⟨starts, stays_nil _⟩⟩)
          rw [splitAfter_of_continues starts, written_of_ne (ne_marker_of_continues starts),
            ← List.append_assoc, ← extended] at last
          have ends := ih (extended ▸ current) wholeNext last
          rwa [List.append_assoc, List.singleton_append] at ends

theorem endsWith_of_splitGlyphs {source token : List Char}
    (last : (splitGlyphs .multiplication (glyphs source)).getLast? = some token) :
    EndsWith source token := by
  cases source with
  | nil => cases last
  | cons c rest =>
      have begun : neutral.afterAll [c] = first [c] := neutral_after [c]
      have whole : Vocabulary.marker ∈ [c] ∨ Stays neutral [c] := by
        by_cases marker : c = Vocabulary.marker
        · exact Or.inl (List.mem_singleton.mpr marker.symm)
        · exact Or.inr (stays_neutral_singleton marker)
      rw [splitGlyphs_cons, ← begun, ← List.singleton_append (x := c)] at last
      exact endsWith_of_splitAfter (begun ▸ describes_first c) whole last

/-! ## What completes a token -/

section Completed

variable {text token completion : List Char}

/-- What stays in the open token is taken into the last token, and into no other. -/
theorem split_append_of_getLast? (last : (split .multiplication text).getLast? = some token)
    (substituted : substitute (text ++ completion) = substitute text ++ completion)
    (stays : Stays (neutral.afterAll (substitute text)) completion)
    (restored : restore completion = completion) :
    split .multiplication (text ++ completion) =
      (split .multiplication text).dropLast ++ [token ++ completion] := by
  have nonempty : text ≠ [] := by
    rintro rfl
    cases last
  rcases List.getLast?_eq_some_iff.mp last with ⟨before, tokens⟩
  rw [split_append_of_stays nonempty substituted stays, tokens, extendTokens_concat, restored,
    List.dropLast_concat]

/-- The last token before it is shown. -/
theorem exists_raw_token (last : (split .multiplication text).getLast? = some token) :
    ∃ raw, restore raw = token ∧ EndsWith (substitute text) raw := by
  rw [split, List.getLast?_map, Option.map_eq_some_iff] at last
  rcases last with ⟨raw, inGlyphs, shownRaw⟩
  exact ⟨raw, shownRaw, endsWith_of_splitGlyphs inGlyphs⟩

/-- A shown placeholder is written out. -/
theorem exists_restore_eq {raw : List Char} (member : Vocabulary.expPlaceholder ∈ raw) :
    ∃ before behind, raw = before ++ Vocabulary.expPlaceholder :: behind ∧
      restore raw = restore before ++ ("exp".toList ++ restore behind) := by
  rcases List.append_of_mem member with ⟨before, behind, rfl⟩
  refine ⟨before, behind, rfl, ?_⟩
  rw [restore_append, restore_cons]
  rfl

/-- A token that shows no `exp` is shown as it was split off. -/
theorem raw_eq_of_untouched {raw : List Char} (shownRaw : restore raw = token)
    (untouched : Untouched token) : raw = token := by
  by_cases placed : Vocabulary.expPlaceholder ∈ raw
  · rcases exists_restore_eq placed with ⟨before, behind, -, written⟩
    have found : "exp".toList <:+: token :=
      ⟨restore before, restore behind, by rw [← shownRaw, written, List.append_assoc]⟩
    exact absurd found untouched.hidden
  · rw [← shownRaw, restore_eq_self placed]

/-- What completes a token to the call of a function goes into the token. -/
theorem split_append_of_callOf {f : Builtin} (other : f ≠ .exp)
    (last : (split .multiplication text).getLast? = some token)
    (parts : token ++ completion = callOf f) :
    split .multiplication (text ++ completion) =
      (split .multiplication text).dropLast ++ [token ++ completion] := by
  have whole := untouched_callOf other
  have untouchedToken : Untouched token := whole.part_of ⟨[], completion, by rw [← parts]; rfl⟩
  have untouchedRest : Untouched completion :=
    whole.part_of ⟨token, [], by rw [← parts, List.append_nil]⟩
  rcases exists_raw_token last with ⟨raw, shownRaw, ends⟩
  rw [raw_eq_of_untouched shownRaw untouchedToken] at ends
  have stays : Stays (neutral.afterAll (substitute text)) completion := by
    rw [ends.afterAll_eq]
    exact ((stays_append_iff neutral token completion).mp (parts ▸ stays_callOf other)).2
  have substituted : substitute (text ++ completion) = substitute text ++ completion := by
    -- The token stands at the end of the typed text, so the call begins inside it.
    rcases untouchedToken.suffix ends.suffix with ⟨before, rfl⟩
    have apart : ∀ c ∈ finishing, ¬ [c] <+: token := fun c member found =>
      not_prefix_callOf f c member (found.trans ⟨completion, parts⟩)
    rw [List.append_assoc, parts, substitute_append (not_prefix_callOf f), whole.substitute_eq,
      substitute_append apart, untouchedToken.substitute_eq, List.append_assoc, parts]
  exact split_append_of_getLast? last substituted stays untouchedRest.restore_eq

/-- Of the exponential function only its whole name is a token, but for the first
letter. -/
theorem eq_exp_of_callOf_exp (last : (split .multiplication text).getLast? = some token)
    (single : token ≠ ['e']) (nonempty : token ≠ []) (missing : completion ≠ [])
    (parts : token ++ completion = callOf .exp) :
    token = "exp".toList ∧ completion = ['('] := by
  have cut : (token, completion) ∈ Completion.cuts (callOf .exp) :=
    (Completion.mem_cuts_iff _ _).mpr ⟨nonempty, missing, parts⟩
  have cuts : Completion.cuts (callOf .exp) =
      [(['e'], "xp(".toList), ("ex".toList, "p(".toList), ("exp".toList, ['('])] := by
    decide
  rw [cuts, List.mem_cons, List.mem_cons, List.mem_singleton] at cut
  rcases cut with first | second | third
  · exact absurd (Prod.ext_iff.mp first).1 single
  · -- The letters `e` and `x` are two factors.
    rcases Prod.ext_iff.mp second with ⟨shown, -⟩
    rcases exists_raw_token last with ⟨raw, shownRaw, ends⟩
    have shownToken : token = "ex".toList := shown
    rw [shownToken] at shownRaw
    have untouched : Untouched "ex".toList :=
      ⟨by decide, by decide, by decide, by decide, by decide, by decide⟩
    rw [raw_eq_of_untouched shownRaw untouched] at ends
    rcases ends.stays with marker | stays
    · exact absurd marker (by decide)
    · exact absurd stays (by decide)
  · exact Prod.ext_iff.mp third

/-- The opening parenthesis of the exponential function goes into its token. -/
theorem split_append_opening (last : (split .multiplication text).getLast? = some "exp".toList) :
    split .multiplication (text ++ ['(']) =
      (split .multiplication text).dropLast ++ ["exp".toList ++ ['(']] := by
  rcases exists_raw_token last with ⟨raw, shownRaw, ends⟩
  have placed : Vocabulary.expPlaceholder ∈ raw := by
    by_contra free
    rw [restore_eq_self free] at shownRaw
    exact exp_not_infix_substitute text (shownRaw ▸ ends.suffix.isInfix)
  have alone : raw = [Vocabulary.expPlaceholder] := by
    rcases exists_restore_eq placed with ⟨before, behind, rfl, written⟩
    have lengths := congrArg List.length (written.symm.trans shownRaw)
    rw [List.length_append, List.length_append] at lengths
    have beforeEmpty : restore before = [] := List.length_eq_zero_iff.mp (by omega)
    have behindEmpty : restore behind = [] := List.length_eq_zero_iff.mp (by omega)
    rw [(restore_eq_nil_iff before).mp beforeEmpty, (restore_eq_nil_iff behind).mp behindEmpty]
    rfl
  have stays : Stays (neutral.afterAll (substitute text)) ['('] := by
    rw [ends.afterAll_eq, alone]
    decide
  have substituted : substitute (text ++ ['(']) = substitute text ++ ['('] :=
    substitute_append (not_prefix_of_not_mem_finishing (by decide))
  exact split_append_of_getLast? last substituted stays (by decide)

end Completed

end Split

namespace Suggest

open Split GlyphClass

/-! ## Hints -/

variable {text : List Char}

theorem leavesOpen_eq_false_iff (text : List Char) :
    leavesOpen text = false ↔ text.count '(' ≤ text.count ')' := by
  rw [leavesOpen, decide_eq_false_iff_not, Nat.not_lt]

/-- The hint of a line without open parentheses is looked up by its last token. -/
theorem hint_of_getLast? (closed : text.count '(' ≤ text.count ')') {token : List Char}
    (last : (split .multiplication text).getLast? = some token) :
    hint text = (completionOf? token).getD .none := by
  have nonempty : text.isEmpty = false := by
    cases text with
    | nil => cases last
    | cons c rest => rfl
  have token_eq : lastToken text = token := by
    rw [lastToken, List.getLastD_eq_getLast?, last, Option.getD_some]
  rw [hint, nonempty, (leavesOpen_eq_false_iff text).mpr closed, token_eq]
  rfl

theorem hint_of_key (closed : text.count '(' ≤ text.count ')') {key : List Char} {entry : Hint}
    (last : (split .multiplication text).getLast? = some key)
    (found : CompletionTable.standard.get? key = some entry) : hint text = entry := by
  have nonempty := (Completion.completes_of_get?_standard found).1
  rw [hint_of_getLast? closed last, completionOf?, if_neg (by simpa using nonempty), found]
  rfl

theorem count_append_typed (closed : text.count '(' ≤ text.count ')') {typed : List Char}
    (name : Typed typed) : (text ++ typed).count '(' ≤ (text ++ typed).count ')' := by
  rcases name.starts with ⟨f, -, here⟩
  have free : '(' ∉ typed := fun member => opening_not_mem_spelling f (here.subset member)
  rw [List.count_append, List.count_append, List.count_eq_zero_of_not_mem free]
  omega

/-- Behind anything that can be multiplied, what has been typed of a name is
completed: the hint is the table's entry, and it offers all that makes the name the
call of a function. -/
theorem hint_append_typed (closed : text.count '(' ≤ text.count ')') (admits : AdmitsFactor text)
    {typed : List Char} (name : Typed typed) :
    CompletionTable.standard.get? typed = some (hint (text ++ typed)) ∧
      Completion.Completes Vocabulary.functions typed (hint (text ++ typed)) := by
  rcases name.starts with ⟨f, -, here⟩
  have supported : f.spelling ∈ Vocabulary.functions := List.mem_map_of_mem f.mem_all
  rcases Completion.exists_get?_standard name.nonempty supported here with ⟨entry, found⟩
  have looked := hint_of_key (count_append_typed closed name)
    (getLast?_split_append_typed admits name) found
  rw [looked]
  exact ⟨found, (Completion.completes_of_get?_standard found).2⟩

theorem hint_append_typed_of_masks :
    let text := "log2(xe))*ceil(2)pi".toList
    let typed := "log1".toList
    text.count '(' ≤ text.count ')' ∧ AdmitsFactor text ∧ Typed typed ∧
      CompletionTable.standard.get? typed = some (hint (text ++ typed)) ∧
      Completion.Completes Vocabulary.functions typed (hint (text ++ typed)) := by
  have closed :
      "log2(xe))*ceil(2)pi".toList.count '(' ≤ "log2(xe))*ceil(2)pi".toList.count ')' := by
    decide
  have admits : AdmitsFactor "log2(xe))*ceil(2)pi".toList :=
    Or.inr (Or.inl (Or.inr ⟨first ['π'], by decide, by decide⟩))
  have name : Typed "log1".toList := ⟨by decide, .log10, by decide, by decide⟩
  exact ⟨closed, admits, name, hint_append_typed closed admits name⟩

/-- Accepting a completion only finishes the last token, where that is no lone `e`:
the token becomes the call of a supported function, and the tokens before it stay
as they were. -/
theorem split_append_candidate (closed : text.count '(' ≤ text.count ')') {key : List Char}
    (last : (split .multiplication text).getLast? = some key)
    (known : (CompletionTable.standard.get? key).isSome) (single : key ≠ ['e'])
    {candidate : List Char} (offered : candidate ∈ (hint text).candidates) :
    (∃ f : Builtin, key ++ candidate = callOf f) ∧
      split .multiplication (text ++ candidate) =
        (split .multiplication text).dropLast ++ [key ++ candidate] := by
  rcases Option.isSome_iff_exists.mp known with ⟨entry, found⟩
  rw [hint_of_key closed last found] at offered
  rcases Completion.completes_of_get?_standard found with ⟨nonempty, completes⟩
  rcases (completes.mem_iff candidate).mp offered with ⟨missing, name, supported, parts⟩
  rcases List.mem_map.mp supported with ⟨f, -, rfl⟩
  have call : key ++ candidate = callOf f := parts
  refine ⟨⟨f, call⟩, ?_⟩
  by_cases exponential : f = .exp
  · subst exponential
    rcases eq_exp_of_callOf_exp last single nonempty missing call with ⟨rfl, rfl⟩
    exact split_append_opening last
  · exact split_append_of_callOf exponential last call

theorem split_append_candidate_of_digits :
    let text := "x(2))sin(xpi*lo".toList
    let key := "lo".toList
    let candidate := "g10(".toList
    text.count '(' ≤ text.count ')' ∧ (split .multiplication text).getLast? = some key ∧
      (CompletionTable.standard.get? key).isSome ∧ key ≠ ['e'] ∧
      candidate ∈ (hint text).candidates ∧
      (∃ f : Builtin, key ++ candidate = callOf f) ∧
      split .multiplication (text ++ candidate) =
        (split .multiplication text).dropLast ++ [key ++ candidate] := by
  have closed : "x(2))sin(xpi*lo".toList.count '(' ≤ "x(2))sin(xpi*lo".toList.count ')' := by decide
  have last : (split .multiplication "x(2))sin(xpi*lo".toList).getLast? = some "lo".toList := by
    decide
  rcases Completion.exists_get?_standard (by decide : "lo".toList ≠ [])
    (by decide : "log10".toList ∈ Vocabulary.functions) (by decide) with ⟨entry, found⟩
  have known : (CompletionTable.standard.get? "lo".toList).isSome := by rw [found]; rfl
  have offered : "g10(".toList ∈ (hint "x(2))sin(xpi*lo".toList).candidates := by
    rw [hint_of_key closed last found]
    exact ((Completion.completes_of_get?_standard found).2.mem_iff _).mpr
      ⟨by decide, "log10".toList, by decide, by decide⟩
  exact ⟨closed, last, known, by decide, offered,
    split_append_candidate closed last known (by decide) offered⟩

end Suggest
end FormulaLine

import FormulaLine.Formula.Evaluate
import FormulaLine.Proofs.FunctionNames
import FormulaLine.Proofs.Reading

namespace FormulaLine

/-!
# The names of a value are those of its formula

A formula names symbols and functions as words outside the vocabulary.  Neither the
operations nor the functions add to them, so a property that all these words have is
one that all names of the value have.  Names may be missing from the value, since a
sum or a product drops the terms that cancel.
-/

/-- A computation in two steps has a result if both steps have one. -/
theorem bind_eq_ok_iff {ε α β : Type} {first : Except ε α} {second : α → Except ε β}
    {result : β} :
    (first >>= second) = .ok result ↔
      ∃ value, first = .ok value ∧ second value = .ok result := by
  cases first <;> simp [bind, Except.bind]

theorem map_eq_ok_iff {ε α β : Type} {first : Except ε α} {f : α → β} {result : β} :
    first.map f = .ok result ↔ ∃ value, first = .ok value ∧ f value = result := by
  cases first <;> simp [Except.map]

/-- A result that is given under a condition only. -/
theorem ite_eq_ok_iff {ε α : Type} {condition : Prop} [Decidable condition] {value result : α}
    {error : ε} :
    (if condition then Except.ok value else .error error) = .ok result ↔
      condition ∧ value = result := by
  split <;> simp [*]

namespace Term

section Names

variable {word : List Char} {words : List (List Char)} {t : Term}

theorem mem_of_mem_dropRepeats (occurs : word ∈ dropRepeats words) : word ∈ words := by
  induction words using dropRepeats.induct with
  | case1 => exact occurs
  | case2 => exact occurs
  | case3 first rest ih =>
    rw [dropRepeats, if_pos rfl] at occurs
    exact List.mem_cons_of_mem _ (ih occurs)
  | case4 first second rest different ih =>
    rw [dropRepeats, if_neg different] at occurs
    rcases List.mem_cons.mp occurs with rfl | occurs
    · exact List.mem_cons_self
    · exact List.mem_cons_of_mem _ (ih occurs)

theorem mem_of_mem_dropSame {a : Term} {terms : List Term} (occurs : a ∈ dropSame terms) :
    a ∈ terms := by
  induction terms using dropSame.induct with
  | case1 => exact occurs
  | case2 => exact occurs
  | case3 first second rest same ih =>
    rw [dropSame, if_pos same] at occurs
    exact List.mem_cons_of_mem _ (ih occurs)
  | case4 first second rest different ih =>
    rw [dropSame, if_neg different] at occurs
    rcases List.mem_cons.mp occurs with rfl | occurs
    · exact List.mem_cons_self
    · exact List.mem_cons_of_mem _ (ih occurs)

theorem mem_parts_of_mem_symbols (occurs : word ∈ t.symbols) : .symbol word ∈ t.parts := by
  rcases List.mem_filterMap.mp (Text.mem_sort.mp (mem_of_mem_dropRepeats occurs)) with
    ⟨part, here, named⟩
  split at named <;> cases named
  exact here

theorem exists_mem_parts_of_mem_callNames (occurs : word ∈ t.callNames) :
    ∃ arguments, .call word arguments ∈ t.parts := by
  rcases List.mem_filterMap.mp occurs with ⟨part, here, named⟩
  have original := (List.mem_filter.mp ((mem_sort part _).mp (mem_of_mem_dropSame here))).1
  split at named <;> cases named
  exact ⟨_, original⟩

variable {P : List Char → Prop}

theorem holds_of_mem_symbols (held : t.Within P) (occurs : word ∈ t.symbols) : P word :=
  (within_symbol word).mp (within_of_mem_parts held (mem_parts_of_mem_symbols occurs))

theorem holds_of_mem_callNames (held : t.Within P) (occurs : word ∈ t.callNames) : P word := by
  rcases exists_mem_parts_of_mem_callNames occurs with ⟨arguments, part⟩
  exact ((within_call word arguments).mp (within_of_mem_parts held part)).1

end Names

end Term

namespace Value

/-- The names of the value have the property. -/
def Within (P : List Char → Prop) : Value → Prop
  | .term t => t.Within P
  | .function name => P name
  | _ => True

section Within

variable {P : List Char → Prop} {a b c : Value}

/-! ## Operations on values -/

theorem within_ofRat (q : Rat) : (ofRat q).Within P :=
  show (Term.ofRat q).Within P from Term.within_ofRat q

theorem within_floorDivide {s t q : Term} (left : s.Within P) (right : t.Within P)
    (divided : floorDivide s t = .ok q) : q.Within P := by
  rw [floorDivide.eq_def] at divided
  split at divided
  · split at divided
    · cases divided
    · split at divided <;> cases divided
      · exact Term.within_ofInt _
      · exact Term.within_ofInt _
  · split at divided <;> cases divided
    exact Term.within_ofInt _
  · cases divided
    exact Term.within_ofInt _
  · cases divided
    exact Term.within_floor (Term.within_div left right)

theorem within_onTerms {operation : Operation} {s t : Term} (left : s.Within P) (right : t.Within P)
    (applied : onTerms operation s t = .ok c) : c.Within P := by
  cases operation with
  | floorDiv =>
    rcases map_eq_ok_iff.mp applied with ⟨q, divided, rfl⟩
    exact within_floorDivide left right divided
  | add => cases applied; exact Term.within_add left right
  | sub => cases applied; exact Term.within_sub left right
  | mul => cases applied; exact Term.within_mul left right
  | div => cases applied; exact Term.within_div left right
  | pow => cases applied; exact Term.within_pow left right

theorem within_onPlain {operation : Operation} {m n : Int}
    (applied : onPlain operation m n = .ok c) : c.Within P := by
  cases operation <;> simp only [onPlain] at applied
  case pow =>
    split at applied
    · cases applied
      trivial
    · split at applied <;> cases applied
      trivial
  case div | floorDiv =>
    split at applied <;> cases applied
    trivial
  all_goals cases applied
  all_goals trivial

theorem within_onMixed {operation : Operation} {t : Term} {n : Int} {plainLeft : Bool}
    (applied : onMixed operation t n plainLeft = .ok c) : c.Within P := by
  rw [onMixed.eq_def] at applied
  split at applied
  · cases applied
  · split at applied
    split at applied
    case h_4 =>
      split at applied
      · cases applied
      · split at applied <;> cases applied
        exact within_ofRat _
    all_goals cases applied
    all_goals exact within_ofRat _

theorem within_operate {operation : Operation} (left : a.Within P) (right : b.Within P)
    (applied : operate operation a b = .ok c) : c.Within P := by
  have empty : Value.unit.Within P := trivial
  rw [operate.eq_def] at applied
  split at applied
  · exact within_onTerms left right applied
  iterate 5 exact (ite_eq_ok_iff.mp applied).2 ▸ empty
  · split at applied
    · exact within_onMixed applied
    · cases applied
  · split at applied
    · exact within_onMixed applied
    · cases applied
  · split at applied
    · exact within_onPlain applied
    · cases applied

theorem within_positive (held : a.Within P) (signed : positive a = .ok c) : c.Within P := by
  rw [positive.eq_def] at signed
  split at signed <;> cases signed
  · exact held
  · trivial

theorem within_negative (held : a.Within P) (signed : negative a = .ok c) : c.Within P := by
  rw [negative.eq_def] at signed
  split at signed <;> cases signed
  · exact Term.within_neg held
  · trivial

/-! ## Calls -/

theorem within_toBinary {s t : Term} (rounded : toBinary s = .ok t) : t.Within P := by
  rw [toBinary.eq_def] at rounded
  split at rounded
  case h_2 =>
    split at rounded <;> cases rounded
    exact Term.within_scalar _
  case h_5 =>
    dsimp only at rounded
    split at rounded <;> cases rounded
    exact Term.within_scalar _
  all_goals cases rounded
  all_goals exact Term.within_scalar _

theorem within_make {maker : Maker} (held : a.Within P) (made : make maker a = .ok c) :
    c.Within P := by
  rw [make.eq_def] at made
  split at made
  case h_2 t =>
    rcases map_eq_ok_iff.mp made with ⟨s, rounded, rfl⟩
    exact within_toBinary rounded
  case h_5 =>
    cases made
    exact held
  all_goals try (split at made)
  all_goals cases made
  all_goals exact within_ofRat _

theorem within_asArgument {t : Term} (held : a.Within P) (handed : asArgument a = .ok t) :
    t.Within P := by
  rw [asArgument.eq_def] at handed
  split at handed
  case h_7 =>
    split at handed <;> cases handed
    exact Term.within_foreign _
  all_goals cases handed
  · exact held
  · exact Term.within_ofInt _
  all_goals exact Term.within_foreign _

theorem within_mapM_asArgument {arguments : List Value} {terms : List Term}
    (held : ∀ b ∈ arguments, b.Within P) (handed : arguments.mapM asArgument = .ok terms) :
    ∀ t ∈ terms, t.Within P := by
  induction arguments generalizing terms with
  | nil =>
    cases handed
    simp
  | cons b rest ih =>
    rcases List.forall_mem_cons.mp held with ⟨first, others⟩
    rw [List.mapM_cons] at handed
    rcases bind_eq_ok_iff.mp handed with ⟨t, handedFirst, handed⟩
    rcases bind_eq_ok_iff.mp handed with ⟨following, handedRest, handed⟩
    cases handed
    exact List.forall_mem_cons.mpr ⟨within_asArgument first handedFirst, ih others handedRest⟩

theorem within_call {arguments : List Value} (callee : a.Within P)
    (held : ∀ b ∈ arguments, b.Within P) (called : a.call arguments = .ok c) : c.Within P := by
  rw [call.eq_def] at called
  split at called
  · split at called <;> cases called
    rename_i applied
    exact Term.within_applyBuiltin (held _ List.mem_cons_self) applied
  · split at called <;> cases called
    rename_i applied
    exact Term.within_applyBuiltin (Term.within_ofInt _) applied
  · exact within_make (held _ List.mem_cons_self) called
  · rcases map_eq_ok_iff.mp called with ⟨terms, handed, rfl⟩
    exact (Term.within_call _ _).mpr ⟨callee, within_mapM_asArgument held handed⟩
  · cases called

end Within

end Value

namespace Token

/-- The word outside the vocabulary that a token names something by. -/
def outsider? : Token → Option (List Char)
  | .variable text | .function text => some text
  | _ => none

end Token

namespace Formula

section Within

variable {P : List Char → Prop}

theorem within_nameValue {word : List Char} {a : Value} (named : nameValue word = .ok a) :
    a.Within P := by
  rw [nameValue.eq_def] at named
  split at named
  · cases named
    trivial
  · cases named
    trivial
  · split at named
    · cases named
      trivial
    · split at named <;> cases named
      trivial

/-- Every word of the formula outside the vocabulary has the property. -/
def Within (P : List Char → Prop) (formula : Formula) : Prop :=
  ∀ token ∈ formula.tokens, ∀ word ∈ token.outsider?, P word

theorem within_part {formula part : Formula} (held : formula.Within P)
    (inside : ∀ token ∈ part.tokens, token ∈ formula.tokens) : part.Within P :=
  fun token occurs => held token (inside token occurs)

/-- The value of a formula has its names from the words outside the vocabulary. -/
theorem within_evaluate {formula : Formula} {a : Value} (held : formula.Within P)
    (evaluated : evaluate formula = .ok a) : a.Within P := by
  induction formula generalizing a with
  | name word => exact within_nameValue evaluated
  | integer digits | decimal text =>
    rw [evaluate, numberValue] at evaluated
    split at evaluated <;> cases evaluated
    trivial
  | «variable» word | function word =>
    cases evaluated
    exact held _ List.mem_cons_self word rfl
  | unresolved word => cases evaluated
  | plus operand ih =>
    rcases bind_eq_ok_iff.mp evaluated with ⟨b, first, signed⟩
    have heldOperand := ih (within_part held (by simp +contextual)) first
    exact Value.within_positive heldOperand signed
  | minus operand ih =>
    rcases bind_eq_ok_iff.mp evaluated with ⟨b, first, signed⟩
    have heldOperand := ih (within_part held (by simp +contextual)) first
    exact Value.within_negative heldOperand signed
  | binary operation left right ihLeft ihRight =>
    rcases bind_eq_ok_iff.mp evaluated with ⟨b, first, evaluated⟩
    rcases bind_eq_ok_iff.mp evaluated with ⟨c, second, applied⟩
    have heldLeft := ihLeft (within_part held (by simp +contextual)) first
    have heldRight := ihRight (within_part held (by simp +contextual)) second
    exact Value.within_operate heldLeft heldRight applied
  | member owner word =>
    rcases bind_eq_ok_iff.mp evaluated with ⟨b, -, failed⟩
    cases failed
  | call callee ih =>
    rcases bind_eq_ok_iff.mp evaluated with ⟨b, first, called⟩
    have heldCallee := ih (within_part held (by simp +contextual)) first
    exact Value.within_call heldCallee (by simp) called
  | callWith callee passing argument ihCallee ihArgument =>
    rcases bind_eq_ok_iff.mp evaluated with ⟨f, first, evaluated⟩
    rcases bind_eq_ok_iff.mp evaluated with ⟨b, second, called⟩
    have heldCallee := ihCallee (within_part held (by simp +contextual)) first
    have heldArgument := ihArgument (within_part held (by simp +contextual)) second
    split at called
    · exact Value.within_call heldCallee (by simpa using heldArgument) called
    · exact Value.within_call heldCallee (by simp) called
    · cases called
  | not operand =>
    rcases bind_eq_ok_iff.mp evaluated with ⟨b, -, negated⟩
    cases negated
    trivial
  | and left right ihLeft ihRight =>
    rcases bind_eq_ok_iff.mp evaluated with ⟨b, first, evaluated⟩
    split at evaluated
    · exact ihRight (within_part held (by simp +contextual)) evaluated
    · cases evaluated
      exact ihLeft (within_part held (by simp +contextual)) first
  | or left right ihLeft ihRight =>
    rcases bind_eq_ok_iff.mp evaluated with ⟨b, first, evaluated⟩
    split at evaluated
    · cases evaluated
      exact ihLeft (within_part held (by simp +contextual)) first
    · exact ihRight (within_part held (by simp +contextual)) evaluated
  | compare comparison left right =>
    rcases bind_eq_ok_iff.mp evaluated with ⟨b, -, evaluated⟩
    rcases bind_eq_ok_iff.mp evaluated with ⟨c, -, evaluated⟩
    rcases bind_eq_ok_iff.mp evaluated with ⟨holds, -, compared⟩
    cases compared
    trivial
  | chain comparison left right following _ _ ihFollowing =>
    -- Only what follows gives its value to the chain.
    rcases bind_eq_ok_iff.mp evaluated with ⟨b, -, evaluated⟩
    rcases bind_eq_ok_iff.mp evaluated with ⟨c, -, evaluated⟩
    rcases bind_eq_ok_iff.mp evaluated with ⟨holds, -, evaluated⟩
    split at evaluated
    · exact ihFollowing (within_part held (by simp +contextual)) evaluated
    · cases evaluated
      trivial
  | choice test yes no _ ihYes ihNo =>
    rcases bind_eq_ok_iff.mp evaluated with ⟨b, -, evaluated⟩
    split at evaluated
    · exact ihYes (within_part held (by simp +contextual)) evaluated
    · exact ihNo (within_part held (by simp +contextual)) evaluated
  | _ =>
    cases evaluated
    trivial

end Within

end Formula
end FormulaLine

import FormulaLine.Formula.Tree

namespace FormulaLine

/-!
# What a formula keeps of its tokens

Reading a formula forgets its parentheses, and reads numbers and names in two ways,
as values and as members.  All other tokens are kept, in the order in which they
were written.  What a formula holds can therefore be told from its tokens, and the
other way round.

The levels of the reader call each other with a fuel that goes down at each call;
the proof is one induction on the fuel, with one lemma for each level.
-/

namespace Token

/-- Whether a formula keeps the token. -/
def isKept : Token → Bool
  | .integer _ | .decimal _ | .name _ | .unresolved _ | .open | .close => false
  | _ => true

/-- The tokens that a formula keeps. -/
def kept (tokens : List Token) : List Token :=
  tokens.filter isKept

section Kept

variable {token : Token} {tokens : List Token}

@[simp] theorem kept_nil : kept [] = [] := rfl

theorem kept_cons_of_kept (here : token.isKept = true) :
    kept (token :: tokens) = token :: kept tokens :=
  List.filter_cons_of_pos here

theorem kept_cons_of_dropped (here : token.isKept = false) :
    kept (token :: tokens) = kept tokens :=
  List.filter_cons_of_neg (by simp [here])

end Kept

end Token

/-- The token of an operation. -/
@[simp] def Operation.token : Operation → Token
  | .add => .plus
  | .sub => .minus
  | .mul => .times
  | .div => .divide
  | .floorDiv => .floorDivide
  | .pow => .power

/-- The tokens of a comparison. -/
def Comparison.tokens : Comparison → List Token
  | .contains => [.keyword .inWord]
  | .containsNot => [.keyword .not, .keyword .inWord]
  | .identical => [.keyword .isWord]
  | .different => [.keyword .isWord, .keyword .not]

/-- The token in front of an argument. -/
@[simp] def Passing.tokens : Passing → List Token
  | .plain => []
  | .spread => [.times]
  | .spreadNamed => [.power]

namespace Formula

/-- The tokens that the formula keeps, in the order in which they were written. -/
@[simp] def tokens : Formula → List Token
  | .integer _ => []
  | .decimal _ => []
  | .name _ => []
  | .variable text => [.variable text]
  | .function text => [.function text]
  | .unresolved _ => []
  | .truth true => [.keyword .true]
  | .truth false => [.keyword .false]
  | .nothing => [.keyword .nothing]
  | .unit => []
  | .ellipsis => [.ellipsis]
  | .plus operand => .plus :: operand.tokens
  | .minus operand => .minus :: operand.tokens
  | .binary operation left right => left.tokens ++ operation.token :: right.tokens
  | .member owner _ => owner.tokens ++ [.dot]
  | .call callee => callee.tokens
  | .callWith callee passing argument => callee.tokens ++ (passing.tokens ++ argument.tokens)
  | .not operand => .keyword .not :: operand.tokens
  | .and left right => left.tokens ++ .keyword .and :: right.tokens
  | .or left right => left.tokens ++ .keyword .or :: right.tokens
  | .compare comparison left right => left.tokens ++ (comparison.tokens ++ right.tokens)
  -- The right operand is the first operand of what follows.
  | .chain comparison left _ following => left.tokens ++ (comparison.tokens ++ following.tokens)
  | .choice test yes no =>
    yes.tokens ++ .keyword .ifWord :: (test.tokens ++ .keyword .elseWord :: no.tokens)

open Token (kept kept_cons_of_kept kept_cons_of_dropped)

/-! ## Operators -/

theorem kept_of_comparison? {tokens rest : List Token} {comparison : Comparison}
    (read : comparison? tokens = some (comparison, rest)) :
    kept tokens = comparison.tokens ++ kept rest := by
  unfold comparison? at read
  split at read <;> cases read <;> rfl

theorem kept_of_sumOperation? {tokens rest : List Token} {operation : Operation}
    (read : sumOperation? tokens = some (operation, rest)) :
    kept tokens = operation.token :: kept rest := by
  unfold sumOperation? at read
  split at read <;> cases read <;> rfl

theorem kept_of_productOperation? {tokens rest : List Token} {operation : Operation}
    (read : productOperation? tokens = some (operation, rest)) :
    kept tokens = operation.token :: kept rest := by
  unfold productOperation? at read
  split at read <;> cases read <;> rfl

theorem tokens_ofMember (owner : Formula) {token : Token} {name : List Char}
    (named : memberName? token = some name) :
    token.isKept = false ∧ (ofMember owner token name).tokens = owner.tokens ++ [.dot] := by
  unfold memberName? at named
  split at named <;> cases named <;> exact ⟨rfl, rfl⟩

/-! ## The levels of the reader -/

/-- Each level keeps the tokens, as long as the fuel lasts. -/
structure Keeps (fuel : Nat) : Prop where
  choice : ∀ {tokens formula rest}, readChoice fuel tokens = some (formula, rest) →
    kept tokens = formula.tokens ++ kept rest
  or : ∀ {tokens formula rest}, readOr fuel tokens = some (formula, rest) →
    kept tokens = formula.tokens ++ kept rest
  and : ∀ {tokens formula rest}, readAnd fuel tokens = some (formula, rest) →
    kept tokens = formula.tokens ++ kept rest
  not : ∀ {tokens formula rest}, readNot fuel tokens = some (formula, rest) →
    kept tokens = formula.tokens ++ kept rest
  comparisons : ∀ {left tokens formula rest},
    readComparisons fuel left tokens = some (formula, rest) →
    left.tokens ++ kept tokens = formula.tokens ++ kept rest
  sum : ∀ {tokens formula rest}, readSum fuel tokens = some (formula, rest) →
    kept tokens = formula.tokens ++ kept rest
  sumRest : ∀ {left tokens formula rest}, readSumRest fuel left tokens = some (formula, rest) →
    left.tokens ++ kept tokens = formula.tokens ++ kept rest
  product : ∀ {tokens formula rest}, readProduct fuel tokens = some (formula, rest) →
    kept tokens = formula.tokens ++ kept rest
  productRest : ∀ {left tokens formula rest},
    readProductRest fuel left tokens = some (formula, rest) →
    left.tokens ++ kept tokens = formula.tokens ++ kept rest
  signed : ∀ {tokens formula rest}, readSigned fuel tokens = some (formula, rest) →
    kept tokens = formula.tokens ++ kept rest
  calls : ∀ {base tokens formula rest}, readCalls fuel base tokens = some (formula, rest) →
    base.tokens ++ kept tokens = formula.tokens ++ kept rest
  callEnd : ∀ {base tokens formula rest}, readCallEnd fuel base tokens = some (formula, rest) →
    base.tokens ++ kept tokens = formula.tokens ++ kept rest
  atom : ∀ {tokens formula rest}, readAtom fuel tokens = some (formula, rest) →
    kept tokens = formula.tokens ++ kept rest

theorem keeps_zero : Keeps 0 := by
  constructor <;> intros <;> contradiction

namespace Keeps

variable {fuel : Nat} (keeps : Keeps fuel) {tokens rest : List Token} {left formula : Formula}

include keeps

theorem readChoice_succ (read : readChoice (fuel + 1) tokens = some (formula, rest)) :
    kept tokens = formula.tokens ++ kept rest := by
  rw [readChoice] at read
  rcases Option.bind_eq_some_iff.mp read with ⟨⟨yes, behind⟩, readYes, read⟩
  have first := keeps.or readYes
  dsimp only at read
  split at read
  · rcases Option.bind_eq_some_iff.mp read with ⟨⟨test, behindTest⟩, readTest, read⟩
    have second := keeps.or readTest
    dsimp only at read
    split at read
    · rcases Option.bind_eq_some_iff.mp read with ⟨⟨no, behindNo⟩, readNo, read⟩
      have third := keeps.choice readNo
      cases read
      rw [first, kept_cons_of_kept rfl, second, kept_cons_of_kept rfl, third]
      simp
    · cases read
  · cases read
    exact first

theorem readOr_succ (read : readOr (fuel + 1) tokens = some (formula, rest)) :
    kept tokens = formula.tokens ++ kept rest := by
  rw [readOr] at read
  rcases Option.bind_eq_some_iff.mp read with ⟨⟨left, behind⟩, readLeft, read⟩
  have first := keeps.and readLeft
  dsimp only at read
  split at read
  · rcases Option.bind_eq_some_iff.mp read with ⟨⟨right, behindRight⟩, readRight, read⟩
    have second := keeps.or readRight
    cases read
    rw [first, kept_cons_of_kept rfl, second]
    simp
  · cases read
    exact first

theorem readAnd_succ (read : readAnd (fuel + 1) tokens = some (formula, rest)) :
    kept tokens = formula.tokens ++ kept rest := by
  rw [readAnd] at read
  rcases Option.bind_eq_some_iff.mp read with ⟨⟨left, behind⟩, readLeft, read⟩
  have first := keeps.not readLeft
  dsimp only at read
  split at read
  · rcases Option.bind_eq_some_iff.mp read with ⟨⟨right, behindRight⟩, readRight, read⟩
    have second := keeps.and readRight
    cases read
    rw [first, kept_cons_of_kept rfl, second]
    simp
  · cases read
    exact first

theorem readNot_succ (read : readNot (fuel + 1) tokens = some (formula, rest)) :
    kept tokens = formula.tokens ++ kept rest := by
  rw [readNot.eq_def] at read
  simp only at read
  split at read
  · rcases Option.bind_eq_some_iff.mp read with ⟨⟨operand, behind⟩, readOperand, read⟩
    have first := keeps.not readOperand
    cases read
    rw [kept_cons_of_kept rfl, first]
    simp
  · rcases Option.bind_eq_some_iff.mp read with ⟨⟨left, behind⟩, readLeft, read⟩
    rw [keeps.sum readLeft, keeps.comparisons read]

theorem readComparisons_succ
    (read : readComparisons (fuel + 1) left tokens = some (formula, rest)) :
    left.tokens ++ kept tokens = formula.tokens ++ kept rest := by
  rw [readComparisons] at read
  split at read
  · rename_i comparison behind compared
    rcases Option.bind_eq_some_iff.mp read with ⟨⟨right, behindRight⟩, readRight, read⟩
    have second := keeps.sum readRight
    rw [kept_of_comparison? compared, second]
    dsimp only at read
    split at read
    · rcases Option.bind_eq_some_iff.mp read with ⟨⟨following, behindChain⟩, readChain, read⟩
      have third := keeps.comparisons readChain
      cases read
      rw [third]
      simp
    · cases read
      simp
  · cases read
    rfl

theorem readSum_succ (read : readSum (fuel + 1) tokens = some (formula, rest)) :
    kept tokens = formula.tokens ++ kept rest := by
  rw [readSum] at read
  rcases Option.bind_eq_some_iff.mp read with ⟨⟨left, behind⟩, readLeft, read⟩
  rw [keeps.product readLeft, keeps.sumRest read]

theorem readSumRest_succ (read : readSumRest (fuel + 1) left tokens = some (formula, rest)) :
    left.tokens ++ kept tokens = formula.tokens ++ kept rest := by
  rw [readSumRest] at read
  split at read
  · rename_i operation behind found
    rcases Option.bind_eq_some_iff.mp read with ⟨⟨right, behindRight⟩, readRight, read⟩
    have following := keeps.sumRest read
    rw [kept_of_sumOperation? found, keeps.product readRight, ← following]
    simp
  · cases read
    rfl

theorem readProduct_succ (read : readProduct (fuel + 1) tokens = some (formula, rest)) :
    kept tokens = formula.tokens ++ kept rest := by
  rw [readProduct] at read
  rcases Option.bind_eq_some_iff.mp read with ⟨⟨left, behind⟩, readLeft, read⟩
  rw [keeps.signed readLeft, keeps.productRest read]

theorem readProductRest_succ
    (read : readProductRest (fuel + 1) left tokens = some (formula, rest)) :
    left.tokens ++ kept tokens = formula.tokens ++ kept rest := by
  rw [readProductRest] at read
  split at read
  · rename_i operation behind found
    rcases Option.bind_eq_some_iff.mp read with ⟨⟨right, behindRight⟩, readRight, read⟩
    have following := keeps.productRest read
    rw [kept_of_productOperation? found, keeps.signed readRight, ← following]
    simp
  · cases read
    rfl

theorem readSigned_succ (read : readSigned (fuel + 1) tokens = some (formula, rest)) :
    kept tokens = formula.tokens ++ kept rest := by
  rw [readSigned.eq_def] at read
  simp only at read
  split at read
  · rcases Option.bind_eq_some_iff.mp read with ⟨⟨operand, behind⟩, readOperand, read⟩
    have first := keeps.signed readOperand
    cases read
    rw [kept_cons_of_kept rfl, first]
    simp
  · rcases Option.bind_eq_some_iff.mp read with ⟨⟨operand, behind⟩, readOperand, read⟩
    have first := keeps.signed readOperand
    cases read
    rw [kept_cons_of_kept rfl, first]
    simp
  · rcases Option.bind_eq_some_iff.mp read with ⟨⟨atom, behindAtom⟩, readAtom, read⟩
    rcases Option.bind_eq_some_iff.mp read with ⟨⟨base, behind⟩, readBase, read⟩
    have first := (keeps.atom readAtom).trans (keeps.calls readBase)
    dsimp only at read
    split at read
    · rcases Option.bind_eq_some_iff.mp read with ⟨⟨exponent, behindPower⟩, readExponent, read⟩
      have second := keeps.signed readExponent
      cases read
      rw [first, kept_cons_of_kept rfl, second]
      simp
    · cases read
      exact first

theorem readCalls_succ (read : readCalls (fuel + 1) left tokens = some (formula, rest)) :
    left.tokens ++ kept tokens = formula.tokens ++ kept rest := by
  rw [readCalls.eq_def] at read
  simp only at read
  split at read
  · rename_i token behind
    rcases Option.bind_eq_some_iff.mp read with ⟨name, named, read⟩
    rcases tokens_ofMember left named with ⟨dropped, whole⟩
    rw [← keeps.calls read, whole, kept_cons_of_kept rfl, kept_cons_of_dropped dropped]
    simp
  · rw [← keeps.calls read, kept_cons_of_dropped rfl, kept_cons_of_dropped rfl]
    rfl
  · rcases Option.bind_eq_some_iff.mp read with ⟨⟨argument, behind⟩, readArgument, read⟩
    rw [← keeps.callEnd read, kept_cons_of_dropped rfl, kept_cons_of_kept rfl,
      keeps.choice readArgument]
    simp
  · rcases Option.bind_eq_some_iff.mp read with ⟨⟨argument, behind⟩, readArgument, read⟩
    rw [← keeps.callEnd read, kept_cons_of_dropped rfl, kept_cons_of_kept rfl,
      keeps.choice readArgument]
    simp
  · rcases Option.bind_eq_some_iff.mp read with ⟨⟨argument, behind⟩, readArgument, read⟩
    rw [← keeps.callEnd read, kept_cons_of_dropped rfl, keeps.choice readArgument]
    simp
  · cases read
    rfl

theorem readCallEnd_succ (read : readCallEnd (fuel + 1) left tokens = some (formula, rest)) :
    left.tokens ++ kept tokens = formula.tokens ++ kept rest := by
  rw [readCallEnd.eq_def] at read
  simp only at read
  split at read
  · rw [← keeps.calls read, kept_cons_of_dropped rfl]
  · cases read

theorem readAtom_succ (read : readAtom (fuel + 1) tokens = some (formula, rest)) :
    kept tokens = formula.tokens ++ kept rest := by
  rw [readAtom.eq_def] at read
  simp only at read
  split at read
  case h_12 =>
    -- A formula in parentheses.
    rcases Option.bind_eq_some_iff.mp read with ⟨⟨inner, behind⟩, readInner, read⟩
    have first := keeps.choice readInner
    dsimp only at read
    split at read
    · cases read
      rw [kept_cons_of_dropped rfl, first, kept_cons_of_dropped rfl]
    · cases read
  all_goals cases read
  all_goals rfl

theorem succ : Keeps (fuel + 1) where
  choice := keeps.readChoice_succ
  or := keeps.readOr_succ
  and := keeps.readAnd_succ
  not := keeps.readNot_succ
  comparisons := keeps.readComparisons_succ
  sum := keeps.readSum_succ
  sumRest := keeps.readSumRest_succ
  product := keeps.readProduct_succ
  productRest := keeps.readProductRest_succ
  signed := keeps.readSigned_succ
  calls := keeps.readCalls_succ
  callEnd := keeps.readCallEnd_succ
  atom := keeps.readAtom_succ

end Keeps

theorem keeps (fuel : Nat) : Keeps fuel := by
  induction fuel with
  | zero => exact keeps_zero
  | succ fuel ih => exact ih.succ

/-- A formula keeps the tokens that it was read from. -/
theorem tokens_of_ofTokens? {tokens : List Token} {formula : Formula}
    (read : ofTokens? tokens = some formula) : formula.tokens = kept tokens := by
  unfold ofTokens? at read
  split at read
  · rename_i found
    cases read
    rw [(keeps _).choice found, Token.kept_nil, List.append_nil]
  · cases read

end Formula
end FormulaLine

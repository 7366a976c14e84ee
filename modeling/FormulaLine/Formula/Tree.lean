import FormulaLine.Formula.Token

namespace FormulaLine

/-!
Trees of formulas.

From loosest to tightest, a formula is a choice with `if` and `else`, a
disjunction, a conjunction, a negation, a chain of comparisons, a sum, a product,
a signed factor, a power, and an atom with calls.  Sums and products group to the
left.  A power groups to the right, binds its base tighter than a sign and its
exponent looser: `-2^2` is minus four, and `2^-1` needs no parentheses.
-/

/-- A comparison. -/
inductive Comparison where
  | contains | containsNot | identical | different
  deriving DecidableEq

/-- A binary operation. -/
inductive Operation where
  | add | sub | mul | div | floorDiv | pow
  deriving DecidableEq

/-- How an argument is handed over. -/
inductive Passing where
  | plain | spread | spreadNamed
  deriving DecidableEq

inductive Formula where
  | integer (digits : List Char)
  | decimal (text : List Char)
  | name (text : List Char)
  | variable (text : List Char)
  | function (text : List Char)
  /-- A word without a meaning. -/
  | unresolved (text : List Char)
  | truth (value : Bool)
  | nothing
  | unit
  | ellipsis
  | plus (operand : Formula)
  | minus (operand : Formula)
  | binary (operation : Operation) (left right : Formula)
  | member (owner : Formula) (name : List Char)
  | call (function : Formula)
  | callWith (function : Formula) (passing : Passing) (argument : Formula)
  | not (operand : Formula)
  | and (left right : Formula)
  | or (left right : Formula)
  | compare (comparison : Comparison) (left right : Formula)
  /-- A comparison that must hold for the chain to go on from its right operand. -/
  | chain (comparison : Comparison) (left right : Formula) (following : Formula)
  | choice (test yes no : Formula)

namespace Formula

/-- A formula at the start of the tokens, and the tokens after it. -/
abbrev Reading := Option (Formula × List Token)

/-- The comparison at the start of the tokens. -/
def comparison? : List Token → Option (Comparison × List Token)
  | .keyword .inWord :: rest => some (.contains, rest)
  | .keyword .not :: .keyword .inWord :: rest => some (.containsNot, rest)
  | .keyword .isWord :: .keyword .not :: rest => some (.different, rest)
  | .keyword .isWord :: rest => some (.identical, rest)
  | _ => none

/-- The sum operator at the start of the tokens. -/
def sumOperation? : List Token → Option (Operation × List Token)
  | .plus :: rest => some (.add, rest)
  | .minus :: rest => some (.sub, rest)
  | _ => none

/-- The product operator at the start of the tokens. -/
def productOperation? : List Token → Option (Operation × List Token)
  | .times :: rest => some (.mul, rest)
  | .divide :: rest => some (.div, rest)
  | .floorDivide :: rest => some (.floorDiv, rest)
  | _ => none

/-- The name that a token has as a member. -/
def memberName? : Token → Option (List Char)
  | .name text => some text
  | .unresolved text => some text
  | .integer _ => some "Integer".toList
  | .decimal _ => some "Float".toList
  | _ => none

/-- The member of a value that a token names.  A number names the function that
makes it, which its digits are handed to. -/
def ofMember (owner : Formula) (token : Token) (name : List Char) : Formula :=
  match token with
  | .name _ | .unresolved _ => .member owner name
  | _ => .call (.member owner name)

mutual

def readChoice : Nat → List Token → Reading
  | 0, _ => none
  | fuel + 1, tokens => do
    let (yes, rest) ← readOr fuel tokens
    match rest with
    | .keyword .ifWord :: rest =>
      let (test, rest) ← readOr fuel rest
      match rest with
      | .keyword .elseWord :: rest =>
        let (no, rest) ← readChoice fuel rest
        return (.choice test yes no, rest)
      | _ => none
    | _ => return (yes, rest)

def readOr : Nat → List Token → Reading
  | 0, _ => none
  | fuel + 1, tokens => do
    let (left, rest) ← readAnd fuel tokens
    match rest with
    | .keyword .or :: rest =>
      let (right, rest) ← readOr fuel rest
      return (.or left right, rest)
    | _ => return (left, rest)

def readAnd : Nat → List Token → Reading
  | 0, _ => none
  | fuel + 1, tokens => do
    let (left, rest) ← readNot fuel tokens
    match rest with
    | .keyword .and :: rest =>
      let (right, rest) ← readAnd fuel rest
      return (.and left right, rest)
    | _ => return (left, rest)

def readNot : Nat → List Token → Reading
  | 0, _ => none
  | fuel + 1, tokens =>
    match tokens with
    | .keyword .not :: rest => do
      let (operand, rest) ← readNot fuel rest
      return (.not operand, rest)
    | tokens => do
      let (left, rest) ← readSum fuel tokens
      readComparisons fuel left rest

/-- The comparisons that continue a chain after its first operand. -/
def readComparisons : Nat → Formula → List Token → Reading
  | 0, _, _ => none
  | fuel + 1, left, tokens =>
    match comparison? tokens with
    | some (comparison, rest) => do
      let (right, rest) ← readSum fuel rest
      match comparison? rest with
      | some _ =>
        let (following, rest) ← readComparisons fuel right rest
        return (.chain comparison left right following, rest)
      | none => return (.compare comparison left right, rest)
    | none => some (left, tokens)

def readSum : Nat → List Token → Reading
  | 0, _ => none
  | fuel + 1, tokens => do
    let (left, rest) ← readProduct fuel tokens
    readSumRest fuel left rest

def readSumRest : Nat → Formula → List Token → Reading
  | 0, _, _ => none
  | fuel + 1, left, tokens =>
    match sumOperation? tokens with
    | some (operation, rest) => do
      let (right, rest) ← readProduct fuel rest
      readSumRest fuel (.binary operation left right) rest
    | none => some (left, tokens)

def readProduct : Nat → List Token → Reading
  | 0, _ => none
  | fuel + 1, tokens => do
    let (left, rest) ← readSigned fuel tokens
    readProductRest fuel left rest

def readProductRest : Nat → Formula → List Token → Reading
  | 0, _, _ => none
  | fuel + 1, left, tokens =>
    match productOperation? tokens with
    | some (operation, rest) => do
      let (right, rest) ← readSigned fuel rest
      readProductRest fuel (.binary operation left right) rest
    | none => some (left, tokens)

def readSigned : Nat → List Token → Reading
  | 0, _ => none
  | fuel + 1, tokens =>
    match tokens with
    | .plus :: rest => do
      let (operand, rest) ← readSigned fuel rest
      return (.plus operand, rest)
    | .minus :: rest => do
      let (operand, rest) ← readSigned fuel rest
      return (.minus operand, rest)
    | tokens => do
      let (base, rest) ← readAtom fuel tokens
      let (base, rest) ← readCalls fuel base rest
      match rest with
      | .power :: rest =>
        let (exponent, rest) ← readSigned fuel rest
        return (.binary .pow base exponent, rest)
      | _ => return (base, rest)

/-- The calls and members that follow an atom. -/
def readCalls : Nat → Formula → List Token → Reading
  | 0, _, _ => none
  | fuel + 1, base, tokens =>
    match tokens with
    | .dot :: token :: rest => do
      readCalls fuel (ofMember base token (← memberName? token)) rest
    | .open :: .close :: rest => readCalls fuel (.call base) rest
    | .open :: .times :: rest => do
      let (argument, rest) ← readChoice fuel rest
      readCallEnd fuel (.callWith base .spread argument) rest
    | .open :: .power :: rest => do
      let (argument, rest) ← readChoice fuel rest
      readCallEnd fuel (.callWith base .spreadNamed argument) rest
    | .open :: rest => do
      let (argument, rest) ← readChoice fuel rest
      readCallEnd fuel (.callWith base .plain argument) rest
    | tokens => some (base, tokens)

/-- The parenthesis that closes a call. -/
def readCallEnd : Nat → Formula → List Token → Reading
  | 0, _, _ => none
  | fuel + 1, base, tokens =>
    match tokens with
    | .close :: rest => readCalls fuel base rest
    | _ => none

def readAtom : Nat → List Token → Reading
  | 0, _ => none
  | fuel + 1, tokens =>
    match tokens with
    | .integer digits :: rest => some (.integer digits, rest)
    | .decimal text :: rest => some (.decimal text, rest)
    | .name text :: rest => some (.name text, rest)
    | .variable text :: rest => some (.variable text, rest)
    | .function text :: rest => some (.function text, rest)
    | .unresolved text :: rest => some (.unresolved text, rest)
    | .keyword .true :: rest => some (.truth true, rest)
    | .keyword .false :: rest => some (.truth false, rest)
    | .keyword .nothing :: rest => some (.nothing, rest)
    | .ellipsis :: rest => some (.ellipsis, rest)
    | .open :: .close :: rest => some (.unit, rest)
    | .open :: rest => do
      let (inner, rest) ← readChoice fuel rest
      match rest with
      | .close :: rest => return (inner, rest)
      | _ => none
    | _ => none

end

/-- The steps that reading a list of tokens may take: each token is reached
through at most a dozen of the levels above. -/
def readingFuel (tokens : List Token) : Nat :=
  16 * tokens.length + 32

/-- The formula that a list of tokens is. -/
def ofTokens? (tokens : List Token) : Option Formula :=
  match readChoice (readingFuel tokens) tokens with
  | some (formula, []) => some formula
  | _ => none

/-- The formula that a text is. -/
def ofText? (text : List Char) : Option Formula := do
  ofTokens? (← Token.ofText? text)

end Formula
end FormulaLine

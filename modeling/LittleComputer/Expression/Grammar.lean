import LittleComputer.Expression.Term
import LittleComputer.Expression.Token

/-!
# Grammar of expressions

Terms are read from tokens by recursive descent. Binary operators are read by precedence, loosest
first: `or`, `and`, `not`, comparisons, `|`, `^`, `&`, shifts, sums, products. Comparisons do not
chain. Signs and `~` bind tighter than every binary operator, and calls, subscripts and fields
tighter still.

Every reader takes a bound on the depth of the descent. `Statement.ofTokens?` gives one that no list
of tokens exceeds: on the way from one token to the next at most eight readers are entered.
-/

namespace LittleComputer.Expression

/-- A reader's result: what it read, and the tokens behind it. -/
abbrev Parsed (α : Type) := Option (α × List Token)

/-- How tight an operator binds, and the term it makes of its operands. -/
structure Infix where
  level : Nat
  build : Term → Term → Term

namespace Infix

def comparisonLevel : Nat := 3

/-- The binary operator at the head of the tokens, and the tokens behind it. -/
def ofTokens? : List Token → Option (Infix × List Token)
  | .kwOr :: rest => some (⟨0, .or⟩, rest)
  | .kwAnd :: rest => some (⟨1, .and⟩, rest)
  | .equal :: rest => some (⟨comparisonLevel, .binary .equal⟩, rest)
  | .unequal :: rest => some (⟨comparisonLevel, .binary .unequal⟩, rest)
  | .less :: rest => some (⟨comparisonLevel, .binary .less⟩, rest)
  | .lessEqual :: rest => some (⟨comparisonLevel, .binary .lessEqual⟩, rest)
  | .greater :: rest => some (⟨comparisonLevel, .binary .greater⟩, rest)
  | .greaterEqual :: rest => some (⟨comparisonLevel, .binary .greaterEqual⟩, rest)
  | .kwIn :: rest => some (⟨comparisonLevel, .binary .isIn⟩, rest)
  | .kwNot :: .kwIn :: rest => some (⟨comparisonLevel, .binary .isNotIn⟩, rest)
  | .bar :: rest => some (⟨4, .binary .bitOr⟩, rest)
  | .caret :: rest => some (⟨5, .binary .bitXor⟩, rest)
  | .ampersand :: rest => some (⟨6, .binary .bitAnd⟩, rest)
  | .shiftLeft :: rest => some (⟨7, .binary .shiftLeft⟩, rest)
  | .shiftRight :: rest => some (⟨7, .binary .shiftRight⟩, rest)
  | .plus :: rest => some (⟨8, .binary .add⟩, rest)
  | .minus :: rest => some (⟨8, .binary .subtract⟩, rest)
  | .star :: rest => some (⟨9, .binary .multiply⟩, rest)
  | .slash :: rest => some (⟨9, .binary .divide⟩, rest)
  | .doubleSlash :: rest => some (⟨9, .binary .floorDivide⟩, rest)
  | .percent :: rest => some (⟨9, .binary .modulo⟩, rest)
  | _ => none

end Infix

/-- The level of `not`. -/
def notLevel : Nat := 2

/-- What may stand behind the comma that ends a list. -/
def endsList : List Token → Bool
  | [] => true
  | .newline :: _ | .assign :: _ | .rightBrace :: _ | .rightBracket :: _ | .rightParen :: _
  | .semicolon :: _ => true
  | _ => false

namespace Grammar

/-- The tokens behind the comma that must separate an item from the one before it. -/
def separated (first : Bool) (ts : List Token) : Option (List Token) :=
  if first then some ts
  else
    match ts with
    | .comma :: rest => some rest
    | _ => none

mutual

/-- A term without a comma of its own: a function, or operators with an optional condition. -/
def test : Nat → List Token → Parsed Term
  | 0, _ => none
  | n + 1, ts =>
    match ts with
    | .kwLambda :: _ => function n true ts
    | _ =>
      match operators n 0 ts with
      | some (x, .kwIf :: ts) =>
        match operators n 0 ts with
        | some (c, .kwElse :: ts) =>
          match test n ts with
          | some (y, ts) => some (.conditional c x y, ts)
          | none => none
        | _ => none
      | result => result

/-- The word `lambda`, its parameters and its body. The body may be conditional unless an `if` would
belong to what stands around it. -/
def function : Nat → (conditional : Bool) → List Token → Parsed Term
  | 0, _, _ => none
  | n + 1, conditional, ts =>
    match ts with
    | .kwLambda :: rest =>
      match parameters n [] rest with
      | some (ps, .colon :: body) =>
        match if conditional then test n body else testPlain n body with
        | some (t, after) => some (.lambda ts.length ps t, after)
        | none => none
      | _ => none
    | _ => none

/-- A term without a condition. -/
def testPlain : Nat → List Token → Parsed Term
  | 0, _ => none
  | n + 1, ts =>
    match ts with
    | .kwLambda :: _ => function n false ts
    | _ => operators n 0 ts

/-- Parameters up to a colon or a closing parenthesis; `seen` holds those read, last first. A comma
may stand before the parenthesis. -/
def parameters : Nat → (seen : List Parameter) → List Token → Parsed (List Parameter)
  | 0, _, _ => none
  | n + 1, seen, ts =>
    match ts with
    | .colon :: _ => some (seen.reverse, ts)
    | .rightParen :: _ => some (seen.reverse, ts)
    | _ =>
      match separated seen.isEmpty ts with
      | some (.rightParen :: rest) => some (seen.reverse, .rightParen :: rest)
      | some (.star :: .name s :: rest) => parameters n (.gather (some s) :: seen) rest
      | some (.star :: rest) => parameters n (.gather none :: seen) rest
      | some (.doubleStar :: .name s :: rest) => parameters n (.gatherNamed s :: seen) rest
      | some (.name s :: .assign :: rest) =>
        match test n rest with
        | some (v, rest) => parameters n (.optional s v :: seen) rest
        | none => none
      | some (.name s :: rest) => parameters n (.required s :: seen) rest
      | _ => none

/-- A term whose binary operators bind at least as tight as `least`. -/
def operators : Nat → (least : Nat) → List Token → Parsed Term
  | 0, _, _ => none
  | n + 1, least, ts =>
    match ts with
    | .kwNot :: rest =>
      if least ≤ notLevel then
        match operators n notLevel rest with
        | some (x, ts) => operatorsFrom n least (.not x) false ts
        | none => none
      else none
    | _ =>
      match primary n ts with
      | some (x, ts) => operatorsFrom n least x false ts
      | none => none

/-- Goes on behind the left operand `x`, which is itself a comparison when `compared`. -/
def operatorsFrom :
    Nat → (least : Nat) → (x : Term) → (compared : Bool) → List Token → Parsed Term
  | 0, _, _, _, _ => none
  | n + 1, least, x, compared, ts =>
    match Infix.ofTokens? ts with
    | some (op, rest) =>
      if op.level < least then some (x, ts)
      else if compared && op.level == Infix.comparisonLevel then none
      else
        match operators n (op.level + 1) rest with
        | some (y, ts) =>
          operatorsFrom n least (op.build x y) (op.level == Infix.comparisonLevel) ts
        | none => none
    | none => some (x, ts)

/-- An operand with its calls, subscripts and fields. -/
def primary : Nat → List Token → Parsed Term
  | 0, _ => none
  | n + 1, ts =>
    match ts with
    | .name s :: rest => suffixes n (.name s) rest
    | .int v :: rest => suffixes n (.int v) rest
    | .float m e :: rest => suffixes n (.float m e) rest
    | .string s :: rest => suffixes n (.string s) rest
    | .bytes s :: rest => suffixes n (.bytes s) rest
    | .minus :: rest => (primary n rest).map fun (x, ts) => (.unary .minus x, ts)
    | .plus :: rest => (primary n rest).map fun (x, ts) => (.unary .plus x, ts)
    | .tilde :: rest => (primary n rest).map fun (x, ts) => (.unary .complement x, ts)
    | .leftParen :: .rightParen :: rest => suffixes n (.tuple []) rest
    | .leftParen :: rest =>
      match terms n true rest with
      | some (x, .rightParen :: ts) => suffixes n (.paren x) ts
      | _ => none
    | .leftBracket :: .rightBracket :: rest => suffixes n (.list []) rest
    | .leftBracket :: rest =>
      match test n rest with
      | some (x, .kwFor :: ts) =>
        match clauses n .rightBracket [] (.kwFor :: ts) with
        | some (cs, ts) => suffixes n (.listOf rest.length x cs) ts
        | none => none
      | some (x, ts) =>
        match moreTerms n true [x] ts with
        | some (xs, .rightBracket :: ts) => suffixes n (.list xs) ts
        | _ => none
      | none => none
    | .leftBrace :: .rightBrace :: rest => suffixes n (.dict []) rest
    | .leftBrace :: rest =>
      match entry n rest with
      | some ((k, v), .kwFor :: ts) =>
        match clauses n .rightBrace [] (.kwFor :: ts) with
        | some (cs, ts) => suffixes n (.dictOf rest.length k v cs) ts
        | none => none
      | some (e, ts) =>
        match moreEntries n [e] ts with
        | some (es, ts) => suffixes n (.dict es) ts
        | none => none
      | none => none
    | _ => none

/-- The calls, subscripts and fields behind `x`. -/
def suffixes : Nat → (x : Term) → List Token → Parsed Term
  | 0, _, _ => none
  | n + 1, x, ts =>
    match ts with
    | .dot :: .name s :: rest => suffixes n (.field x s) rest
    | .dot :: _ => none
    | .leftParen :: rest =>
      match arguments n [] rest with
      | some (as, ts) => suffixes n (.call x as) ts
      | none => none
    | .leftBracket :: .colon :: _ =>
      match bounds n x .none (ts.drop 1) with
      | some (y, ts) => suffixes n y ts
      | none => none
    | .leftBracket :: rest =>
      match terms n false rest with
      | some (i, .rightBracket :: ts) => suffixes n (.index x i) ts
      | some (low, ts) =>
        match bounds n x low ts with
        | some (y, ts) => suffixes n y ts
        | none => none
      | none => none
    | _ => some (x, ts)

/-- The rest of a slice, from the first colon on. -/
def bounds : Nat → (x low : Term) → List Token → Parsed Term
  | 0, _, _, _ => none
  | n + 1, x, low, ts =>
    match bound n ts with
    | some (high, ts) =>
      match bound n ts with
      | some (step, .rightBracket :: ts) => some (.slice x low high step, ts)
      | _ => none
    | none => none

/-- A colon and the bound behind it, either of which may be missing. -/
def bound : Nat → List Token → Parsed Term
  | 0, _ => none
  | n + 1, ts =>
    match ts with
    | .colon :: .colon :: rest => some (.none, .colon :: rest)
    | .colon :: .rightBracket :: rest => some (.none, .rightBracket :: rest)
    | .colon :: rest => test n rest
    | _ => some (.none, ts)

/-- Arguments up to the closing parenthesis, which is taken. -/
def arguments : Nat → (seen : List Argument) → List Token → Parsed (List Argument)
  | 0, _, _ => none
  | n + 1, seen, ts =>
    match ts with
    | .rightParen :: rest => some (seen.reverse, rest)
    | _ =>
      match separated seen.isEmpty ts with
      | some (.rightParen :: rest) => some (seen.reverse, rest)
      | some (.star :: rest) =>
        match test n rest with
        | some (x, ts) => arguments n (.spread x :: seen) ts
        | none => none
      | some (.doubleStar :: rest) =>
        match test n rest with
        | some (x, ts) => arguments n (.spreadNamed x :: seen) ts
        | none => none
      | some ts =>
        match test n ts with
        | some (.name s, .assign :: ts) =>
          match test n ts with
          | some (x, ts) => arguments n (.named s x :: seen) ts
          | none => none
        | some (x, ts) => arguments n (.positional x :: seen) ts
        | none => none
      | none => none

/-- A term, or a tuple written without parentheses of its own. -/
def terms : Nat → (trailingComma : Bool) → List Token → Parsed Term
  | 0, _, _ => none
  | n + 1, trailingComma, ts =>
    match test n ts with
    | some (x, .comma :: ts) =>
      match moreTerms n trailingComma [x] (.comma :: ts) with
      | some (xs, ts) => some (.tuple xs, ts)
      | none => none
    | result => result

/-- Goes on behind the terms `seen`, which are kept last first. -/
def moreTerms :
    Nat → (trailingComma : Bool) → (seen : List Term) → List Token → Parsed (List Term)
  | 0, _, _, _ => none
  | n + 1, trailingComma, seen, ts =>
    match ts with
    | .comma :: rest =>
      if endsList rest then
        if trailingComma then some (seen.reverse, rest) else none
      else
        match test n rest with
        | some (x, ts) => moreTerms n trailingComma (x :: seen) ts
        | none => none
    | _ => some (seen.reverse, ts)

/-- A key, a colon and a value. -/
def entry : Nat → List Token → Parsed (Term × Term)
  | 0, _ => none
  | n + 1, ts =>
    match test n ts with
    | some (k, .colon :: ts) =>
      match test n ts with
      | some (v, ts) => some ((k, v), ts)
      | none => none
    | _ => none

/-- Goes on behind the entries `seen` up to the closing brace, which is taken. -/
def moreEntries :
    Nat → (seen : List (Term × Term)) → List Token → Parsed (List (Term × Term))
  | 0, _, _ => none
  | n + 1, seen, ts =>
    match ts with
    | .rightBrace :: rest => some (seen.reverse, rest)
    | .comma :: .rightBrace :: rest => some (seen.reverse, rest)
    | .comma :: rest =>
      match entry n rest with
      | some (e, ts) => moreEntries n (e :: seen) ts
      | none => none
    | _ => none

/-- The clauses of a comprehension up to the closing token, which is taken. -/
def clauses :
    Nat → (close : Token) → (seen : List Clause) → List Token → Parsed (List Clause)
  | 0, _, _, _ => none
  | n + 1, close, seen, ts =>
    match ts with
    | .kwFor :: rest =>
      match loopTerms n [] rest with
      | some (xs, .kwIn :: ts) =>
        match xs.target? with
        | some target =>
          match operators n 0 ts with
          | some (source, ts) => clauses n close (.each target source :: seen) ts
          | none => none
        | none => none
      | _ => none
    | .kwIf :: rest =>
      match testPlain n rest with
      | some (c, ts) => clauses n close (.given c :: seen) ts
      | none => none
    | t :: rest => if t = close then some (seen.reverse, rest) else none
    | [] => none

/-- What a loop binds: one operand, or several with commas between them. -/
def loopTerms : Nat → (seen : List Term) → List Token → Parsed Term
  | 0, _, _ => none
  | n + 1, seen, ts =>
    match primary n ts with
    | some (x, .comma :: ts) =>
      if endsList ts then some (.tuple (x :: seen).reverse, ts) else loopTerms n (x :: seen) ts
    | some (x, ts) => if seen.isEmpty then some (x, ts) else some (.tuple (x :: seen).reverse, ts)
    | none => none

end

end Grammar

end LittleComputer.Expression

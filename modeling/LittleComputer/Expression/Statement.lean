import LittleComputer.Expression.Grammar

/-!
# Grammar of statements

A text is a sequence of statements. Small ones share a line, with semicolons between them. A
function, a condition or a loop has a body: small statements on the same line, or a block of its
own.
-/

namespace LittleComputer.Expression.Statement

/-- The operator of an update such as `+=`. -/
def updateOperator? : Token → Option BinaryOperator
  | .plus => some .add
  | .minus => some .subtract
  | .star => some .multiply
  | .slash => some .divide
  | .doubleSlash => some .floorDivide
  | .percent => some .modulo
  | .ampersand => some .bitAnd
  | .bar => some .bitOr
  | .caret => some .bitXor
  | .shiftLeft => some .shiftLeft
  | .shiftRight => some .shiftRight
  | _ => none

/-- Whether a small statement ends here. -/
def isOver : List Token → Bool
  | [] | .newline :: _ | .semicolon :: _ => true
  | _ => false

/-- A target that an update can have; it is a single one. -/
def single? (x : Term) : Option Target :=
  match x.target? with
  | some (.items _) => none
  | target => target

/-- One small statement. -/
def small (bound : Nat) : List Token → Parsed Statement
  | .kwPass :: rest => some (.evaluate .none, rest)
  | .kwBreak :: rest => some (.leave, rest)
  | .kwContinue :: rest => some (.again, rest)
  | .kwReturn :: rest =>
    if isOver rest then some (.give .none, rest)
    else (Grammar.terms bound false rest).map fun (x, ts) => (.give x, ts)
  | ts =>
    match Grammar.terms bound false ts with
    | some (x, .assign :: ts) =>
      match x.target?, Grammar.terms bound false ts with
      | some target, some (y, ts) => some (.assign target y, ts)
      | _, _ => none
    | some (x, .update operator :: ts) =>
      match single? x, updateOperator? operator, Grammar.terms bound false ts with
      | some target, some op, some (y, ts) => some (.update op target y, ts)
      | _, _, _ => none
    | some (x, ts) => some (.evaluate x, ts)
    | none => none

/-- The small statements up to the end of the line, which is taken; `seen` holds those read, last
first. -/
def line (bound : Nat) : Nat → (seen : List Statement) → List Token → Parsed (List Statement)
  | 0, _, _ => none
  | n + 1, seen, ts =>
    match small bound ts with
    | some (s, []) => some ((s :: seen).reverse, [])
    | some (s, .newline :: ts) => some ((s :: seen).reverse, ts)
    | some (s, [.semicolon]) => some ((s :: seen).reverse, [])
    | some (s, .semicolon :: .newline :: ts) => some ((s :: seen).reverse, ts)
    | some (s, .semicolon :: ts) => line bound n (s :: seen) ts
    | _ => none

mutual

/-- The statements that one line starts. -/
def group (bound : Nat) : Nat → List Token → Parsed (List Statement)
  | 0, _ => none
  | n + 1, ts =>
    match ts with
    | .kwDef :: .name s :: .leftParen :: rest =>
      match Grammar.parameters bound [] rest with
      | some (ps, .rightParen :: .colon :: rest) =>
        match suite bound n rest with
        | some (body, rest) => some ([.define (.name s) ts.length s ps body], rest)
        | none => none
      | _ => none
    | .kwDef :: _ => none
    | .kwIf :: rest => (condition bound n rest).map fun (s, ts) => ([s], ts)
    | .kwFor :: rest =>
      match Grammar.loopTerms bound [] rest with
      | some (xs, .kwIn :: rest) =>
        match xs.target?, Grammar.terms bound false rest with
        | some target, some (source, .colon :: rest) =>
          match suite bound n rest with
          | some (body, rest) => some ([.each target source body], rest)
          | none => none
        | _, _ => none
      | _ => none
    | _ => line bound n [] ts

/-- A test, its body, and what follows if it fails. -/
def condition (bound : Nat) : Nat → List Token → Parsed Statement
  | 0, _ => none
  | n + 1, ts =>
    match Grammar.test bound ts with
    | some (test, .colon :: rest) =>
      match suite bound n rest with
      | some (yes, .kwElif :: rest) =>
        match condition bound n rest with
        | some (no, rest) => some (.choose test yes [no], rest)
        | none => none
      | some (yes, .kwElse :: .colon :: rest) =>
        match suite bound n rest with
        | some (no, rest) => some (.choose test yes no, rest)
        | none => none
      | some (_, .kwElse :: _) => none
      | some (yes, rest) => some (.choose test yes [], rest)
      | none => none
    | _ => none

/-- A body: the rest of the line, or the block that follows it. -/
def suite (bound : Nat) : Nat → List Token → Parsed (List Statement)
  | 0, _ => none
  | n + 1, ts =>
    match ts with
    | .newline :: .indent :: rest => block bound n [] rest
    | .newline :: _ => none
    | _ => line bound n [] ts

/-- The statements of a block up to its end, which is taken. -/
def block (bound : Nat) : Nat → (seen : List Statement) → List Token → Parsed (List Statement)
  | 0, _, _ => none
  | n + 1, seen, ts =>
    match ts with
    | .outdent :: rest => some (seen, rest)
    | _ =>
      match group bound n ts with
      | some (ss, rest) => block bound n (seen ++ ss) rest
      | none => none

end

/-- The statements up to the end of the text; `seen` holds those read. -/
def ofTokensFrom (bound : Nat) :
    Nat → (seen : List Statement) → List Token → Option (List Statement)
  | 0, _, _ => none
  | n + 1, seen, ts =>
    match ts with
    | [] => some seen
    | .newline :: rest => ofTokensFrom bound n seen rest
    | _ =>
      match group bound bound ts with
      | some (ss, rest) => ofTokensFrom bound n (seen ++ ss) rest
      | none => none

/-- The statements of a text. -/
def ofTokens? (ts : List Token) : Option (List Statement) :=
  ofTokensFrom (8 * ts.length + 8) (ts.length + 1) [] ts

end LittleComputer.Expression.Statement

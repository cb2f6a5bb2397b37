import LittleComputer.Layout.Locator
import LittleComputer.Operand.Scope
import LittleComputer.Operand.StringLiteral
import LittleComputer.Source.Statement

/-!
# Sizes

How many bytes a statement takes. Instructions and `.FILL` take a word whatever their operands are;
only `.BLKW` and `.STRINGZ` have to be read.
-/

namespace LittleComputer

/-- The only operand of a statement. -/
def Statement.operand (s : Statement) : Except Fault Text :=
  match s.operands with
  | [word] => .ok word
  | words => .error (.operandCount s.operation 1 words.length)

/-- The words of a `.STRINGZ` operand, without the zero that ends a string. -/
def Statement.stringWords (s : Statement) : Except Fault (List UInt16) :=
  match s.operands with
  | [] => .error .malformedString
  | _ => do StringLiteral.words (← s.operand)

namespace Scope

variable [Interpreter]

/-- The operand of `.ORIG`. -/
def origin (scope : Scope) (s : Statement) : Except Fault UInt16 := do
  let word ← s.operand
  UInt16.ofBitVec <$> scope.immediate (Field.unsigned 16) word

/-- The operand of `.BLKW`: a number of words. -/
def blockCount (scope : Scope) (s : Statement) : Except Fault Nat := do
  let word ← s.operand
  BitVec.toNat <$> scope.immediate (Field.unsigned 16) word

/-- Bytes of a statement. -/
def size (scope : Scope) (s : Statement) : Except Fault Nat :=
  match s.operation with
  | .empty => .ok 0
  | .keyword .orig => .ok 0
  | .keyword .finish => .ok 0
  | .keyword .blkw => (wordSize * ·) <$> scope.blockCount s
  | .keyword .stringz => (fun ws => wordSize * (ws.length + 1)) <$> s.stringWords
  | _ => .ok wordSize

end Scope

end LittleComputer

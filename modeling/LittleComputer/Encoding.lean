import LittleComputer.Instruction
import LittleComputer.Layout.Walk
import LittleComputer.Program

/-!
# The second pass

Once all symbols are known, every statement is turned into words. The walk places them with the same
locator as the survey. The number of operands is looked at first, then the operands from left to
right.
-/

namespace LittleComputer

/-- The flags that a branch looks at. -/
def Mnemonic.flags? : Mnemonic → Option (BitVec 3)
  | .br => some 0b111
  | .brn => some 0b100
  | .brz => some 0b010
  | .brp => some 0b001
  | .brnz => some 0b110
  | .brnp => some 0b101
  | .brzp => some 0b011
  | .brnzp => some 0b111
  | _ => none

def Mnemonic.operator? : Mnemonic → Option Operator
  | .add => some .add
  | .and => some .and
  | .xor => some .xor
  | _ => none

def Mnemonic.access? : Mnemonic → Option Access
  | .ldb => some .loadByte
  | .ldw => some .loadWord
  | .stb => some .storeByte
  | .stw => some .storeWord
  | _ => none

def Mnemonic.shift? : Mnemonic → Option Shift
  | .lshf => some .left
  | .rshfl => some .rightLogical
  | .rshfa => some .rightArithmetic
  | _ => none

/-- The words of the instructions that have no operands. -/
def Mnemonic.fixedWord? : Mnemonic → Option UInt16
  | .nop => some 0x0000
  | .ret => some 0xC1C0
  | .halt => some 0xF025
  | .rti => some 0x8000
  | _ => none

/-- Number of operands. -/
def Mnemonic.arity : Mnemonic → Nat
  | .add | .and | .xor => 3
  | .ldb | .ldw | .stb | .stw => 3
  | .lshf | .rshfl | .rshfa => 3
  | .not | .lea => 2
  | .nop | .ret | .halt | .rti => 0
  | _ => 1

namespace Scope

variable [Interpreter]

/-- Operands `target, left, right`; the last one is a register if it starts like one. -/
def operate (s : Scope) (op : Operator) (target left right : Text) : Except Fault Instruction := do
  let dr ← Register.parse target
  let sr ← Register.parse left
  match right with
  | [] => .error .emptyOperand
  | g :: _ =>
    if g.is 'R' || g.is 'r' then return .operateRegister op dr sr (← Register.parse right)
    else return .operateImmediate op dr sr (← s.immediate (Field.signed 5) right)

/-- The instruction of a keyword with its operands; directives have none. -/
def instruction (s : Scope) (m : Mnemonic) (operands : List Text) : Except Fault Instruction :=
  match m, operands with
  | .not, [target, source] => do
    return .operateImmediate .xor (← Register.parse target) (← Register.parse source) (-1)
  | .nop, [] => .ok (.branch 0 0)
  | .jmp, [base] => do return .jump (← Register.parse base)
  | .ret, [] => .ok (.jump 7)
  | .jsr, [target] => do return .call (← s.offset 11 target)
  | .jsrr, [base] => do return .callRegister (← Register.parse base)
  | .lea, [target, place] => do
    return .loadAddress (← Register.parse target) (← s.offset 9 place)
  | .trap, [vector] => do return .trap (← s.immediate (Field.unsigned 8) vector)
  | .halt, [] => .ok (.trap 0x25)
  | .rti, [] => .ok .returnFromInterrupt
  | m, [target] =>
    match m.flags? with
    | some flags => do return .branch flags (← s.offset 9 target)
    | none => tooManyOrFew m [target]
  | m, [a, b, c] =>
    match m.operator?, m.access?, m.shift? with
    | some op, _, _ => s.operate op a b c
    | _, some kind, _ => do
      return .access kind (← Register.parse a) (← Register.parse b)
        (← s.immediate (Field.signed 6) c)
    | _, _, some kind => do
      return .shift kind (← Register.parse a) (← Register.parse b)
        (← s.immediate (Field.unsigned 4) c)
    | _, _, _ => tooManyOrFew m [a, b, c]
  | m, operands => tooManyOrFew m operands
where
  tooManyOrFew (m : Mnemonic) (operands : List Text) : Except Fault Instruction :=
    .error (.operandCount (.keyword m) m.arity operands.length)

/-- The word of a keyword with its operands. Aliases have words of their own, that of `NOT` is made
from two registers. -/
def encode (s : Scope) (m : Mnemonic) (operands : List Text) : Except Fault UInt16 :=
  match m, m.fixedWord?, operands with
  | _, some word, [] => .ok word
  | .not, _, [target, source] => do
    return Instruction.complementWord (← Register.parse target) (← Register.parse source)
  | m, _, operands => Instruction.word <$> s.instruction m operands

/-- The words of a statement. -/
def words (scope : Scope) (s : Statement) : Except Fault (List UInt16) :=
  match s.operation with
  | .empty => .ok []
  | .unlisted _ => .error (.unknownInstruction s.operation.name)
  | .keyword .orig => .ok []
  | .keyword .finish => .ok []
  | .keyword .fill => do return [← scope.word (← s.operand)]
  | .keyword .blkw => do return List.replicate (← scope.blockCount s) 0
  | .keyword .stringz => do return (← s.stringWords) ++ [0]
  | .keyword m => do return [← scope.encode m s.operands]

end Scope

/-- Words at an address and the ones behind it, all from one line. -/
def Cell.place (address : Nat) (line : SourceLine) (words : List UInt16) : List Cell :=
  words.zipIdx.map fun (word, index) => ⟨UInt16.ofNat (address + wordSize * index), word, line⟩

/-- How far the second pass has come. -/
structure Encoding where
  locator : Locator
  /-- The cells so far, last first. -/
  cells : List Cell

namespace Encoding

def start : Encoding := ⟨.start, []⟩

/-- What the operands of a statement see. -/
def scope (e : Encoding) (symbols : SymbolTable) (s : Statement) : Scope :=
  ⟨symbols, e.locator.address, s.line.number⟩

variable [Interpreter]

/-- Moves to the origin that the statement sets and to its label. -/
def mark (e : Encoding) (symbols : SymbolTable) (s : Statement) : Except Fault Encoding := do
  let loc ← (e.scope symbols s).relocate e.locator s
  match s.label with
  | none => .ok { e with locator := loc }
  | some _ =>
    let (_, loc) ← loc.here
    .ok { e with locator := loc }

/-- Places the words of the statement and goes on behind them. -/
def emit (e : Encoding) (symbols : SymbolTable) (s : Statement) : Except Fault Encoding := do
  let words ← (e.scope symbols s).words s
  let cells := Cell.place e.locator.address s.line words
  let loc ← e.locator.advance (wordSize * words.length)
  .ok ⟨loc, cells.reverse ++ e.cells⟩

def step (symbols : SymbolTable) (e : Encoding) (s : Statement) : Encoding × Option Fault :=
  match e.mark symbols s >>= fun marked => marked.emit symbols s with
  | .error fault => (e, some fault)
  | .ok next => (next, none)

def walk (symbols : SymbolTable) (statements : List Statement) : Walk Encoding :=
  Walk.through (step symbols) start statements

/-- The program of a walk that met no fault. -/
def program (symbols : SymbolTable) (w : Walk Encoding) : Except Error Program :=
  match w.error with
  | some error => .error error
  | none => .ok ⟨w.final.locator.origin, w.final.cells.reverse, symbols⟩

end Encoding

end LittleComputer
